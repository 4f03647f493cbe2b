import Multidomain.Proofs.Orchestration.Clocks

/-!
# No child is lost and none is asked twice

An inquiry is either open or has been answered, with the document in the reply taken up there and then. A
discovery goes on when nothing of it has been open for the settle delay and its turn comes: with the next
stage, or to its end, so that in the end nothing is open, no discovery is under way, and every child that
was named is polled. `discovery_ordered_and_complete` puts this together with the order of the stages and
with the polls, which go to the polled children and to nobody else.
-/

namespace Multidomain

namespace Session

variable {s : Session} {calls : List (List String)} {log : List Inquiry}

/-! ### Open or answered -/

/-- A reply to the inquiry came while it was open, and the document in it, if there was one, was taken
up at once. -/
def Settled (s : Session) (inputs : List NodeInput) (q : Inquiry) : Prop :=
  ∃ before reply after, inputs = before ++ .reply q.ticket reply :: after ∧
    q ∈ (s.run before).pending.items ∧
    ((s.run before).next (.reply q.ticket reply)).domain =
      (s.run before).taken (reply.topology?.map (Letter.mk q.child)) (s.run before).domain

theorem Settled.append {inputs : List NodeInput} {q : Inquiry} (h : s.Settled inputs q)
    (more : List NodeInput) : s.Settled (inputs ++ more) q := by
  obtain ⟨before, reply, after, rfl, hsettled⟩ := h
  exact ⟨before, reply, after ++ more, by rw [List.append_assoc, List.cons_append], hsettled⟩

theorem domain_answer {q : Inquiry} (hq : q ∈ s.pending.items) (reply : ChildReply) :
    (s.next (.reply q.ticket reply)).domain =
      s.taken (reply.topology?.map (Letter.mk q.child)) s.domain := by
  have hletter : s.letter? (.reply q.ticket reply) = reply.topology?.map (Letter.mk q.child) := by
    rw [letter?, Roster.mem_items_iff.1 hq]
    cases reply.topology? <;> rfl
  rw [← hletter]
  exact (s.answer_frame q.ticket reply).2.2

/-- An open inquiry stays open until it is answered, and what is sent is open. -/
theorem pending_turn (h : s.desk.Orderly calls log) {input : NodeInput} {w : Desk}
    {sent : List Inquiry} (hturn : s.Turn input w sent) {q : Inquiry}
    (hq : q ∈ s.pending.items ∨ q ∈ sent) :
    q ∈ w.pending.items ∨ (q ∈ s.pending.items ∧ ∃ reply, input = .reply q.ticket reply) := by
  have hbooked : Booked s.pending s.tickets s.begun log := h.booked
  have hkept : ∀ {other : Inquiry} (reply : ChildReply), q ∈ s.pending.items →
      q ∈ (s.pending.erase other.ticket).items ∨ (q ∈ s.pending.items ∧ ∃ reply',
        NodeInput.reply other.ticket reply = .reply q.ticket reply') := by
    intro other reply hq
    by_cases hticket : q.ticket = other.ticket
    · exact .inr ⟨hq, reply, by rw [hticket]⟩
    · exact .inl (Roster.mem_erase.2 ⟨hq, hticket⟩)
  cases hturn with
  | idle | ended => exact .inl (hq.resolve_right List.not_mem_nil)
  | begun | polled | advanced => exact .inl (hbooked.mem_ask_iff.2 hq)
  | answered _ reply | resting _ reply => exact hkept reply (hq.resolve_right List.not_mem_nil)

theorem pending_or_settled (config : Config) (inputs : List NodeInput) :
    ∀ q ∈ (ofConfig config).asked inputs,
      q ∈ ((ofConfig config).run inputs).pending.items ∨ (ofConfig config).Settled inputs q := by
  induction inputs using List.reverseRecOn with
  | nil => exact fun q hq => absurd hq List.not_mem_nil
  | append_singleton inputs input ih =>
    intro q hq
    rw [asked_append, List.mem_append] at hq
    have hsent : ((ofConfig config).run inputs).asked [input] =
        ((ofConfig config).run inputs).asks input := List.append_nil _
    rw [hsent] at hq
    have hopen : (q ∈ ((ofConfig config).run inputs).pending.items ∨
        q ∈ ((ofConfig config).run inputs).asks input) ∨ (ofConfig config).Settled inputs q := by
      obtain hold | hnew := hq
      · exact (ih q hold).imp_left .inl
      · exact .inl (.inr hnew)
    obtain hopen | hsettled := hopen
    · obtain hstill | ⟨hwas, reply, rfl⟩ :=
        pending_turn (orderly_run config inputs) (Session.turn _ input) hopen
      · rw [run_append]
        exact .inl hstill
      · exact .inr ⟨inputs, reply, [], rfl, hwas, domain_answer hwas reply⟩
    · exact .inr (hsettled.append [input])

/-- An inquiry is answered before one of a later stage is sent. -/
theorem settled_of_later (config : Config) (inputs : List NodeInput) {q later : Inquiry} {n : Nat}
    (hq : q ∈ (ofConfig config).asked inputs) (hof : q.discovery = some n)
    (hlater : later ∈ (ofConfig config).asked inputs) (hlaterOf : later.discovery = some n)
    (hstage : Stage.discovery.idxOf q.stage < Stage.discovery.idxOf later.stage) :
    (ofConfig config).Settled inputs q := by
  have h := orderly_run config inputs
  have hlt : n < (inputs.filterMap NodeInput.call?).length := h.begun ▸ h.booked.known q hq n hof
  obtain ⟨done, ahead, hreached⟩ := h.reached n _ (List.getElem?_eq_getElem hlt)
  exact (pending_or_settled config inputs q hq).resolve_left
    (hreached.not_open hof hlater hlaterOf hstage)

/-! ### The course of a discovery -/

/-- Nothing of the discovery is open, and that for the settle delay at least. -/
def RestOver (config : Config) (inputs : List NodeInput) (n : Nat) : Prop :=
  (∀ q ∈ ((ofConfig config).run inputs).pending.items, q.discovery ≠ some n) ∧
    config.settleDelayMillis ≤ (ofConfig config).quiet n 0 inputs

instance (config : Config) (inputs : List NodeInput) (n : Nat) :
    Decidable (RestOver config inputs n) :=
  inferInstanceAs (Decidable (_ ∧ _))

theorem rested_iff_restOver (config : Config) (inputs : List NodeInput) {n : Nat} {d : Discovery}
    (hfind : ((ofConfig config).run inputs).discoveries.find? n = some d) :
    ((ofConfig config).run inputs).Rested d ↔ RestOver config inputs n := by
  have h := orderly_run config inputs
  have hconfig := (ticking_run config inputs).configured
  constructor
  · rintro ⟨moment, hanswered, hlong⟩
    have hsince := answered_run config inputs hfind hanswered
    rw [hconfig] at hlong
    exact ⟨h.not_open_of_answered hfind hanswered, by omega⟩
  · rintro ⟨hidle, hlong⟩
    obtain ⟨-, -, -, done, hreached⟩ := h.of_find? hfind
    cases hreached.standing with
    | asking _ hopen =>
      obtain ⟨q, hq, hof⟩ := hopen
      exact absurd hof (hidle q hq)
    | finished hnone => cases hfind.symm.trans hnone
    | @resting moment hrests =>
      have hanswered := congrArg Discovery.answered (Option.some.inj (hfind.symm.trans hrests))
      have hsince := answered_run config inputs hfind hanswered
      exact ⟨moment, hanswered, by rw [hconfig]; omega⟩

/-- A discovery is over once it has rested after its last stage, and not before. -/
theorem over_turn {n : Nat} (hn : n < s.begun) {input : NodeInput} {w : Desk} {sent : List Inquiry}
    (hturn : s.Turn input w sent) :
    w.discoveries.find? n = none ↔ s.discoveries.find? n = none ∨
      ∃ d, s.discoveries.find? n = some d ∧ s.Rested d ∧ d.ahead = [] ∧ input = .wake n := by
  have hkept (hother : w.discoveries.find? n = s.discoveries.find? n)
      (hno : ∀ d, s.discoveries.find? n = some d → s.Rested d → d.ahead = [] → input ≠ .wake n) :
      w.discoveries.find? n = none ↔ s.discoveries.find? n = none ∨
        ∃ d, s.discoveries.find? n = some d ∧ s.Rested d ∧ d.ahead = [] ∧ input = .wake n := by
    rw [hother]
    refine (or_iff_left ?_).symm
    rintro ⟨d, hd, hrested, hahead, heq⟩
    exact hno d hd hrested hahead heq
  cases hturn with
  | idle _ _ hwake => exact hkept rfl fun d hd hrested _ heq => hwake n d hd heq hrested
  | begun hcall =>
    exact hkept (s.discoveries.find?_put_of_ne (Nat.ne_of_gt hn)) fun _ _ _ _ heq => by
      subst heq
      cases hcall
  | polled | answered => exact hkept rfl fun _ _ _ _ => nofun
  | @resting q hq reply d hd =>
    obtain ⟨m, -, hfind⟩ := Option.bind_eq_some_iff.1 hd
    obtain rfl : d.number = m := Roster.key_of_find? hfind
    by_cases hnumber : d.number = n
    · subst hnumber
      have hself := s.discoveries.find?_put_self { d with answered := some s.now }
      refine iff_of_false (fun hover => nomatch hself.symm.trans hover) ?_
      rintro (hover | ⟨_, _, _, _, heq⟩)
      · cases hfind.symm.trans hover
      · cases heq
    · exact hkept (s.discoveries.find?_put_of_ne hnumber) fun _ _ _ _ => nofun
  | @advanced d hd _ stage ahead hahead =>
    by_cases hnumber : d.number = n
    · subst hnumber
      have hself := s.discoveries.find?_put_self { d with ahead, answered := none }
      refine iff_of_false (fun hover => nomatch hself.symm.trans hover) ?_
      rintro (hover | ⟨other, hother, _, hover, _⟩)
      · cases hd.symm.trans hover
      · obtain rfl := Option.some.inj (hd.symm.trans hother)
        cases hahead.symm.trans hover
    · refine hkept (s.discoveries.find?_put_of_ne hnumber) fun _ _ _ _ heq => hnumber ?_
      cases heq
      rfl
  | @ended d hd hrested hahead =>
    by_cases hnumber : d.number = n
    · subst hnumber
      exact iff_of_true (s.discoveries.find?_erase_self d.number)
        (.inr ⟨d, hd, hrested, hahead, rfl⟩)
    · refine hkept ((s.discoveries.find?_erase d.number n).trans (if_neg (Ne.symm hnumber)))
        fun _ _ _ _ heq => hnumber ?_
      cases heq
      rfl

/-- When its turn comes after a rest, a discovery asks each of its children for the next stage. -/
theorem asks_wake {n : Nat} {d : Discovery} (hfind : s.discoveries.find? n = some d)
    [Decidable (s.Rested d)] :
    (s.asks (.wake n)).map (fun q => (q.stage, q.child, q.discovery)) =
      if s.Rested d then
        (d.ahead.take 1).flatMap fun stage => d.children.map (stage, ·, some d.number)
      else [] := by
  show (s.wake n).2.map _ = _
  rw [wake, hfind]
  simp only [s.rested_iff]
  split
  · unfold proceed
    split
    · next stage ahead hahead =>
      rw [hahead, List.take_succ_cons, List.take_zero, List.flatMap_singleton]
      exact map_ask _ _ _ _ (·, ·, ·)
    · next hahead =>
      rw [hahead]
      rfl
  · rfl

/-- Polls come at ticks alone, and beside the first stage, which comes with the call, the inquiries of a
discovery are sent when its turn comes. -/
theorem discovery_of_mem_asks {input : NodeInput} {q : Inquiry} (hq : q ∈ s.asks input) :
    match q.discovery with
    | none => input = .tick
    | some n => input = .wake n ∨ (n = s.begun ∧ input.call?.isSome) := by
  have hturn := s.turn input
  generalize (s.next input).desk = w at hturn
  generalize s.asks input = sent at hturn hq
  cases hturn with
  | idle | answered | resting | ended => cases hq
  | begun hcall =>
    rw [(mem_ask hq).2.1]
    exact .inr ⟨rfl, by rw [hcall]; rfl⟩
  | polled =>
    rw [(mem_ask hq).2.1]
  | advanced =>
    rw [(mem_ask hq).2.1]
    exact .inl rfl

/-- How a discovery of these children stands after the inputs, `done` being the stages that it has begun
and `ahead` the others, and how it goes on from there. -/
structure Course (config : Config) (inputs : List NodeInput) (n : Nat) (children : List String)
    (done ahead : List Stage) : Prop where
  reached : ((ofConfig config).run inputs).desk.Reached ((ofConfig config).asked inputs) n children
    done ahead
  /-- After the rest each child is asked for the next stage. -/
  wakes : (((ofConfig config).run inputs).asks (.wake n)).map
      (fun q => (q.stage, q.child, q.discovery)) =
    if RestOver config inputs n then
      (ahead.take 1).flatMap fun stage => children.map (stage, ·, some n)
    else []
  /-- After the last rest it is over, and otherwise it is not. -/
  ends : ∀ input, (((ofConfig config).run inputs).next input).discoveries.find? n = none ↔
    ((ofConfig config).run inputs).discoveries.find? n = none ∨
      (input = .wake n ∧ RestOver config inputs n ∧ ahead = [])
  /-- Each answer is one less to come. -/
  left : ∀ input, (((ofConfig config).run inputs).next input).desk.left n +
    (((ofConfig config).run inputs).answersIn n input).toNat =
      ((ofConfig config).run inputs).desk.left n
  /-- When none is to come, only the last rest is. -/
  polled : ((ofConfig config).run inputs).desk.left n = 0 →
    config.settleDelayMillis ≤ (ofConfig config).quiet n 0 inputs →
      ∀ child ∈ children, child ∈ (((ofConfig config).run inputs).next (.wake n)).children

/-- A discovery ends with a turn after its last rest. -/
theorem over_next (config : Config) (inputs : List NodeInput) {n : Nat} {children : List String}
    {done ahead : List Stage} (hlt : n < ((ofConfig config).run inputs).begun)
    (hreached : ((ofConfig config).run inputs).desk.Reached ((ofConfig config).asked inputs) n
      children done ahead) (input : NodeInput) :
    (((ofConfig config).run inputs).next input).discoveries.find? n = none ↔
      ((ofConfig config).run inputs).discoveries.find? n = none ∨
        (input = .wake n ∧ RestOver config inputs n ∧ ahead = []) := by
  refine (over_turn hlt (Session.turn _ input)).trans (or_congr_right' fun hnotOver => ?_)
  obtain ⟨d, hfind⟩ := Option.ne_none_iff_exists'.1 hnotOver
  have hrested := rested_iff_restOver config inputs hfind
  obtain ⟨-, -, rfl⟩ := hreached.of_find? hfind
  constructor
  · rintro ⟨other, hother, hrest, hnothing, hinput⟩
    obtain rfl := Option.some.inj (hfind.symm.trans hother)
    exact ⟨hinput, hrested.1 hrest, hnothing⟩
  · rintro ⟨hinput, hrest, hnothing⟩
    exact ⟨d, hfind, hrested.2 hrest, hnothing, hinput⟩

theorem asks_wake_of_reached (config : Config) (inputs : List NodeInput) {n : Nat}
    {children : List String} {done ahead : List Stage}
    (hreached : ((ofConfig config).run inputs).desk.Reached ((ofConfig config).asked inputs) n
      children done ahead) :
    (((ofConfig config).run inputs).asks (.wake n)).map
        (fun q => (q.stage, q.child, q.discovery)) =
      if RestOver config inputs n then
        (ahead.take 1).flatMap fun stage => children.map (stage, ·, some n)
      else [] := by
  cases hfind : ((ofConfig config).run inputs).discoveries.find? n with
  | none =>
    rw [hreached.ahead_eq_nil hfind, asks, wake, hfind]
    simp
  | some d =>
    obtain ⟨rfl, rfl, rfl⟩ := hreached.of_find? hfind
    have hrested := rested_iff_restOver config inputs hfind
    have : Decidable (((ofConfig config).run inputs).Rested d) := decidable_of_iff' _ hrested
    rw [asks_wake hfind, if_congr hrested rfl rfl]

theorem exists_course (config : Config) (inputs : List NodeInput) {n : Nat} {children : List String}
    (hcall : (inputs.filterMap NodeInput.call?)[n]? = some children) :
    ∃ done ahead, Course config inputs n children done ahead := by
  have h := orderly_run config inputs
  obtain ⟨done, ahead, hreached⟩ := h.reached n children hcall
  have hlt : n < ((ofConfig config).run inputs).begun := by
    rw [show ((ofConfig config).run inputs).begun = _ from h.begun]
    exact (List.getElem?_eq_some_iff.1 hcall).1
  have hends := over_next config inputs hlt hreached
  refine ⟨done, ahead, hreached, asks_wake_of_reached config inputs hreached, hends,
    fun input => left_turn h hlt (Session.turn _ input), fun hleft hlong child hchild => ?_⟩
  obtain ⟨hidle, hahead⟩ := idle_of_left h hcall hreached hleft
  have hnext := orderly_turn h (Session.turn _ (.wake n))
  rw [show (NodeInput.wake n).call? = none from rfl, Option.toList_none, List.append_nil] at hnext
  exact (hnext.polled child).2 ⟨n, children, hcall, hchild,
    (hends (.wake n)).2 (.inr ⟨rfl, ⟨hidle, hlong⟩, hahead⟩)⟩

/-! ### The end of all discoveries -/

/-- Without open inquiries a discovery that is under way rests, and will have done so long enough. -/
theorem rested_elapse (config : Config) (inputs : List NodeInput) {d : Discovery}
    (hnone : ((ofConfig config).run inputs).pending.items = [])
    (hfind : ((ofConfig config).run inputs).discoveries.find? d.number = some d) :
    Rested (((ofConfig config).run inputs).elapse
      ((ofConfig config).run inputs).config.settleDelayMillis) d := by
  have hfind' : ((ofConfig config).run (inputs ++ [.elapsed
      ((ofConfig config).run inputs).config.settleDelayMillis])).discoveries.find? d.number =
        some d := by
    rw [run_append]
    exact hfind
  have hrested := (rested_iff_restOver config _ hfind').2 ?_
  · rw [run_append] at hrested
    exact hrested
  · refine ⟨?_, ?_⟩
    · rw [run_append]
      intro q hq
      have hopen : q ∈ ((ofConfig config).run inputs).pending.items := hq
      rw [hnone] at hopen
      cases hopen
    · rw [quiet_append_singleton, (ticking_run config inputs).configured]
      exact Nat.le_add_left _ _

theorem workload_answer (config : Config) (inputs : List NodeInput) {q : Inquiry}
    (hq : q ∈ ((ofConfig config).run inputs).pending.items) (reply : ChildReply) :
    ((ofConfig config).run (inputs ++ [.reply q.ticket reply])).workload + 1 =
      ((ofConfig config).run inputs).workload := by
  rw [run_append]
  exact workload_turn (orderly_run config inputs) (Session.turn _ (.reply q.ticket reply))
    (.inl ⟨q, hq, reply, rfl⟩)

/-- Once its rest is over a discovery goes on. -/
theorem workload_wake (config : Config) (inputs : List NodeInput) {d : Discovery}
    (hnone : ((ofConfig config).run inputs).pending.items = [])
    (hfind : ((ofConfig config).run inputs).discoveries.find? d.number = some d) :
    ((ofConfig config).run (inputs ++ [.elapsed
        ((ofConfig config).run inputs).config.settleDelayMillis, .wake d.number])).workload + 1 =
      ((ofConfig config).run inputs).workload := by
  rw [run_append]
  exact workload_turn (s := ((ofConfig config).run inputs).next (.elapsed _))
    (orderly_run config inputs) (Session.turn _ (.wake d.number))
    (.inr ⟨d, hfind, rested_elapse config inputs hnone hfind, rfl⟩)

/-- So many turns bring all open inquiries and all discoveries to their end, and they are a run of inputs
none of which adds children. -/
def Settles (config : Config) (network : Network) (rounds : Nat) (inputs : List NodeInput) : Prop :=
  ∃ more : List NodeInput, more.filterMap NodeInput.call? = [] ∧
    (settleIn network rounds ((ofConfig config).run inputs)).1 =
      (ofConfig config).run (inputs ++ more) ∧
    ((ofConfig config).run (inputs ++ more)).pending.items = [] ∧
    ((ofConfig config).run (inputs ++ more)).discoveries.items = []

theorem Settles.of_turn {config : Config} {network : Network} {rounds : Nat}
    {inputs turn : List NodeInput} (h : Settles config network rounds (inputs ++ turn))
    (hcalls : turn.filterMap NodeInput.call? = [])
    (hturn : (settleIn network (rounds + 1) ((ofConfig config).run inputs)).1 =
      (settleIn network rounds ((ofConfig config).run (inputs ++ turn))).1) :
    Settles config network (rounds + 1) inputs := by
  obtain ⟨more, hmoreCalls, heq, hnone⟩ := h
  rw [List.append_assoc] at heq hnone
  refine ⟨turn ++ more, ?_, hturn.trans heq, hnone⟩
  rw [List.filterMap_append, hcalls, hmoreCalls, List.append_nil]

theorem settles_of_workload_le (config : Config) (network : Network) {rounds : Nat}
    {inputs : List NodeInput} (hwork : ((ofConfig config).run inputs).workload ≤ rounds) :
    Settles config network rounds inputs := by
  induction rounds generalizing inputs with
  | zero =>
    refine ⟨[], rfl, by rw [List.append_nil]; rfl, ?_⟩
    rw [List.append_nil]
    exact eq_nil_of_workload (Nat.le_zero.1 hwork)
  | succ rounds ih =>
    cases hopen : ((ofConfig config).run inputs).pending.items with
    | cons q others =>
      have hq : q ∈ ((ofConfig config).run inputs).pending.items := by
        rw [hopen]
        exact List.mem_cons_self
      have hless := workload_answer config inputs hq (network q.request)
      refine (ih (Nat.le_of_add_le_add_right (hless.trans_le hwork))).of_turn rfl ?_
      rw [settleIn, hopen, run_append]
      rfl
    | nil =>
      cases hunder : ((ofConfig config).run inputs).discoveries.items with
      | cons d others =>
        -- The oldest discovery rests: let the delay pass, and it is its turn.
        have hfind : ((ofConfig config).run inputs).discoveries.find? d.number = some d := by
          rw [← Roster.mem_items_iff, hunder]
          exact List.mem_cons_self
        have hless := workload_wake config inputs hopen hfind
        refine (ih (Nat.le_of_add_le_add_right (hless.trans_le hwork))).of_turn rfl ?_
        rw [settleIn, hopen, hunder, run_append]
        rfl
      | nil =>
        refine ⟨[], rfl, ?_, ?_⟩
        · rw [settleIn, hopen, hunder, List.append_nil]
        · rw [List.append_nil]
          exact ⟨hopen, hunder⟩

/-- Whoever adds whatever addresses when, and whatever the children reply in whatever order: each list
that is added begins a discovery of the addresses in it without the blanks around them, each once. The
discovery asks each child once for each of its stages. It begins a stage when its turn comes after all
inquiries of the one before were answered, the documents in the replies taken up, and the settle delay has
passed; and after as many answers as it has inquiries, whatever they are, and the last delay its children
are polled. At a tick that is due each child whose discovery is over is asked once for its edge updates,
and nobody else is; and at no other time. -/
theorem discovery_ordered_and_complete (config : Config) (inputs : List NodeInput) :
    let start := ofConfig config
    let s := start.run inputs
    let log := start.asked inputs
    let calls := inputs.filterMap NodeInput.call?
    (∀ addresses, (posting addresses).adds? = some addresses ∧ (tidy addresses).Nodup ∧
      ∀ child, child ∈ tidy addresses ↔
        child ≠ "" ∧ ∃ address ∈ addresses, Text.trim address = child) ∧
    (∀ n children, calls[n]? = some children →
      ∃ done ahead, Course config inputs n children done ahead) ∧
    (∀ q ∈ log, q ∈ s.pending.items ∨ start.Settled inputs q) ∧
    (∀ q ∈ log, ∀ later ∈ log, ∀ n, q.discovery = some n → later.discovery = some n →
      Stage.discovery.idxOf q.stage < Stage.discovery.idxOf later.stage → start.Settled inputs q) ∧
    (∀ network, let t := (s.settle network).1
      t.pending.items = [] ∧ t.discoveries.items = [] ∧
        ∀ children ∈ calls, ∀ child ∈ children, child ∈ t.children) ∧
    (∀ child, child ∈ s.children ↔
      ∃ n children, calls[n]? = some children ∧ child ∈ children ∧ s.discoveries.find? n = none) ∧
    s.children.Nodup ∧
    (s.asks .tick).map (fun q => (q.stage, q.child, q.discovery)) =
      (if due config.pollIntervalSeconds inputs then s.children.map (.edgeUpdates, ·, none) else []) ∧
    ∀ input, ∀ q ∈ s.asks input, match q.discovery with
      | none => input = .tick
      | some n => input = .wake n ∨ (n = calls.length ∧ input.call?.isSome) := by
  intro start s log calls
  have horderly : s.desk.Orderly calls log := orderly_run config inputs
  refine ⟨fun addresses => ⟨adds?_posting addresses, nodup_eraseDups _, fun _ => mem_tidy⟩,
    fun n children hcall => exists_course config inputs hcall,
    pending_or_settled config inputs, fun q hq later hlater n hof hlaterOf hstage =>
      settled_of_later config inputs hq hof hlater hlaterOf hstage,
    fun network => ?_, horderly.polled, horderly.once, asks_tick (ticking_run config inputs),
    fun input q hq => ?_⟩
  · obtain ⟨more, hnocall, hsettled, hopen, hunder⟩ :=
      settles_of_workload_le config network (Nat.le_refl s.workload)
    have hlater := orderly_run config (inputs ++ more)
    rw [List.filterMap_append, hnocall, List.append_nil] at hlater
    have hsettle : (s.settle network).1 = start.run (inputs ++ more) := hsettled
    rw [hsettle]
    refine ⟨hopen, hunder, fun children hmem child hchild => ?_⟩
    obtain ⟨n, hcall⟩ := List.getElem?_of_mem hmem
    refine (hlater.polled child).2 ⟨n, children, hcall, hchild, ?_⟩
    refine Option.eq_none_iff_forall_ne_some.2 fun d hd => ?_
    have hmem := Roster.mem_of_find? hd
    rw [show (start.run (inputs ++ more)).desk.discoveries.items = [] from hunder] at hmem
    cases hmem
  · have hmem := discovery_of_mem_asks hq
    rwa [show s.begun = calls.length from horderly.begun] at hmem

/-- Two discoveries of one child overlap, and it has nothing to say. -/
example :
    let inputs := [posting ["10.0.0.2 "], posting ["10.0.0.2", ""], .reply 1 .refused,
      .reply 0 (.answered 500 []), .elapsed 500, .wake 0, .wake 1]
    questions 0 ((ofConfig {}).asked inputs) = [(.devices, "10.0.0.2"), (.links, "10.0.0.2")] ∧
      questions 1 ((ofConfig {}).asked inputs) = [(.devices, "10.0.0.2"), (.links, "10.0.0.2")] := by
  decide +kernel

end Session

end Multidomain
