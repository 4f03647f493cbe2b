import Multidomain.Proofs.Orchestration.Countdown

/-!
# Rests and polls in time

A session has one clock and remembers moments: of the last answer to each discovery that rests, and of
the last poll. Both are told here by what happened since, without the session's memory: a discovery rests
as long as nothing of it has been answered (`quiet`), and the time to the next poll runs from the first
call on and anew from each poll (`clock`).
-/

namespace Multidomain

/-- The milliseconds that an input lets pass. -/
def NodeInput.millis : NodeInput → Nat
  | .elapsed millis => millis
  | .request _ | .tick | .wake _ | .reply _ _ => 0

namespace Session

variable {s s' : Session} {calls : List (List String)} {log : List Inquiry}

/-- The clocks of two sessions show the same. -/
structure SameClock (s s' : Session) : Prop where
  config : s'.config = s.config
  started : s'.started = s.started
  now : s'.now = s.now
  polled : s'.polled = s.polled

theorem sameClock_answer (s : Session) (ticket : Nat) (reply : ChildReply) :
    s.SameClock (s.answer ticket reply).1 := by
  cases hfind : s.pending.find? ticket with
  | none =>
    rw [answer, hfind]
    exact ⟨rfl, rfl, rfl, rfl⟩
  | some q =>
    obtain ⟨domain, overview, hsession⟩ := s.answer_eq hfind reply
    obtain ⟨discoveries, hrest⟩ :=
      rest_eq { s with pending := s.pending.erase ticket, domain, overview } q.discovery
    rw [hsession, hrest]
    exact ⟨rfl, rfl, rfl, rfl⟩

theorem sameClock_proceed (s : Session) (d : Discovery) : s.SameClock (s.proceed d).1 := by
  unfold proceed
  split <;> exact ⟨rfl, rfl, rfl, rfl⟩

theorem sameClock_wake (s : Session) (n : Nat) : s.SameClock (s.wake n).1 := by
  unfold wake
  split
  · exact ⟨rfl, rfl, rfl, rfl⟩
  · split
    · exact s.sameClock_proceed _
    · exact ⟨rfl, rfl, rfl, rfl⟩

theorem sameClock_addChildren (s : Session) (addresses : List String) :
    s.start.SameClock (s.addChildren addresses).1 := by
  unfold addChildren
  simp only
  split <;> exact ⟨rfl, rfl, rfl, rfl⟩

theorem sameClock_request {q : RestRequest} (h : (NodeInput.request q).adds? = none) :
    s.SameClock (s.next (.request q)) := by
  obtain ⟨_, _, _, heq⟩ := (s.serve_of_adds?_eq_none h).1.eq
  rw [next, act, heq]
  exact ⟨rfl, rfl, rfl, rfl⟩

theorem now_start (s : Session) : s.start.now = s.now := by
  unfold start
  split <;> rfl

theorem now_next (s : Session) (input : NodeInput) : (s.next input).now = s.now + input.millis := by
  cases input with
  | request q =>
    cases hadds : (NodeInput.request q).adds? with
    | none => exact (sameClock_request hadds).now
    | some addresses =>
      have hnext : s.next (.request q) = (s.addChildren addresses).1 := (s.serve_of_adds hadds).1
      rw [hnext]
      exact (s.sameClock_addChildren addresses).now.trans s.now_start
  | elapsed => rfl
  | tick =>
    show s.tick.1.now = s.now
    unfold tick
    split <;> rfl
  | wake n => exact (s.sameClock_wake n).now
  | reply ticket reply => exact (s.sameClock_answer ticket reply).now

/-! ### How long a discovery rests -/

/-- The milliseconds that pass in the course of the inputs after the last answer of a discovery; if there
is none, all of them and `since` besides. -/
def quiet (s : Session) (n since : Nat) : List NodeInput → Nat
  | [] => since
  | input :: rest =>
    (s.next input).quiet n (if s.answersIn n input then 0 else since + input.millis) rest

theorem quiet_append_singleton (s : Session) (n since : Nat) (inputs : List NodeInput)
    (input : NodeInput) :
    s.quiet n since (inputs ++ [input]) =
      if (s.run inputs).answersIn n input then 0 else s.quiet n since inputs + input.millis := by
  induction inputs generalizing s since with
  | nil => rfl
  | cons first rest ih => exact ih (s.next first) _

theorem millis_of_answersIn {n : Nat} {input : NodeInput} (h : s.answersIn n input = true) :
    input.millis = 0 := by
  cases input with
  | elapsed => cases h
  | request | tick | wake | reply => rfl

/-- A discovery rests from an answer on, and until it moves on itself. -/
theorem answered_turn (h : s.desk.Orderly calls log) {input : NodeInput} {w : Desk}
    {sent : List Inquiry} (hturn : s.Turn input w sent) {n moment : Nat} {d : Discovery}
    (hfind : w.discoveries.find? n = some d) (hanswered : d.answered = some moment) :
    (s.answersIn n input = true ∧ moment = s.now) ∨
      (s.answersIn n input = false ∧
        ∃ before, s.discoveries.find? n = some before ∧ before.answered = some moment) := by
  cases hturn with
  | idle _ hreply => exact .inr ⟨answersIn_eq_false hreply n, d, hfind, hanswered⟩
  | polled => exact .inr ⟨rfl, d, hfind, hanswered⟩
  | @begun _ children hcall =>
    have hfind : (s.discoveries.put _).find? n = some d := hfind
    rw [Roster.find?_put] at hfind
    split at hfind
    · cases hfind
      cases hanswered
    · exact .inr ⟨answersIn_of_call hcall n, d, hfind, hanswered⟩
  | @answered q hq reply =>
    rw [answersIn_reply hq]
    refine .inr ⟨decide_eq_false fun hof => ?_, d, hfind, hanswered⟩
    exact h.not_open_of_answered hfind hanswered q hq hof
  | @resting q hq reply before hd =>
    obtain ⟨m, hof, hbefore⟩ := Option.bind_eq_some_iff.1 hd
    obtain rfl : before.number = m := Roster.key_of_find? hbefore
    have hfind : (s.discoveries.put { before with answered := some s.now }).find? n = some d :=
      hfind
    rw [Roster.find?_put] at hfind
    rw [answersIn_reply hq, hof]
    split at hfind
    · next hnumber =>
      cases hfind
      exact .inl ⟨decide_eq_true (congrArg some hnumber), (Option.some.inj hanswered).symm⟩
    · next hnumber =>
      exact .inr ⟨decide_eq_false fun heq => hnumber (Option.some.inj heq), d, hfind, hanswered⟩
  | @advanced before hd =>
    have hfind : (s.discoveries.put _).find? n = some d := hfind
    rw [Roster.find?_put] at hfind
    split at hfind
    · cases hfind
      cases hanswered
    · exact .inr ⟨rfl, d, hfind, hanswered⟩
  | @ended before hd =>
    have hfind : (s.discoveries.erase before.number).find? n = some d := hfind
    rw [Roster.find?_erase] at hfind
    split at hfind
    · cases hfind
    · exact .inr ⟨rfl, d, hfind, hanswered⟩

/-- A discovery that rests has done so for as long as nothing of it has been answered. -/
theorem answered_run (config : Config) (inputs : List NodeInput) {n moment : Nat} {d : Discovery}
    (hfind : ((ofConfig config).run inputs).discoveries.find? n = some d)
    (hanswered : d.answered = some moment) :
    moment + (ofConfig config).quiet n 0 inputs = ((ofConfig config).run inputs).now := by
  induction inputs using List.reverseRecOn generalizing d with
  | nil => cases hfind
  | append_singleton inputs input ih =>
    rw [run_append] at hfind ⊢
    have hnow : ((ofConfig config).run inputs).run [input] =
      ((ofConfig config).run inputs).next input := rfl
    rw [hnow, now_next, quiet_append_singleton]
    obtain ⟨hin, rfl⟩ | ⟨hin, before, hbefore, hsince⟩ :=
      answered_turn (orderly_run config inputs) (Session.turn _ input) hfind hanswered
    · rw [if_pos hin, millis_of_answersIn hin]
    · rw [hin, if_neg Bool.false_ne_true, ← ih hbefore hsince, Nat.add_assoc]

/-! ### Polls -/

/-- The milliseconds since the last poll, or since children were first added, after one more input, if
polls come at intervals of so many seconds. Without an interval nobody is ever polled. -/
def clock (seconds : Nat) (since? : Option Nat) : NodeInput → Option Nat
  | .elapsed millis => since?.map (· + millis)
  | .tick => since?.map fun since => if 1000 * seconds ≤ since then 0 else since
  | input => if since?.isNone ∧ input.adds?.isSome ∧ seconds ≠ 0 then some 0 else since?

/-- Whether the time is up for a poll after the inputs. -/
def due (seconds : Nat) (inputs : List NodeInput) : Bool :=
  (inputs.foldl (clock seconds) none).any (1000 * seconds ≤ ·)

/-- The session polls by such a clock. -/
structure Ticking (config : Config) (since? : Option Nat) (s : Session) : Prop where
  configured : s.config = config
  runs : s.polled.isSome = (s.started && decide (config.pollIntervalSeconds ≠ 0))
  past : ∀ moment ∈ s.polled, moment ≤ s.now
  shows : s.polled.map (s.now - ·) = since?

variable {config : Config} {since? : Option Nat}

theorem Ticking.of_same (h : Ticking config since? s) (hsame : s.SameClock s') :
    Ticking config since? s' where
  configured := hsame.config.trans h.configured
  runs := by rw [hsame.polled, hsame.started, h.runs]
  past := by
    rw [hsame.polled, hsame.now]
    exact h.past
  shows := by rw [hsame.polled, hsame.now, h.shows]

/-- The first call starts the clock, and no other one touches it. -/
theorem Ticking.start (h : Ticking config since? s) :
    Ticking config
      (if since?.isNone ∧ config.pollIntervalSeconds ≠ 0 then some 0 else since?) s.start := by
  have hshown : since?.isSome = s.polled.isSome := by
    rw [← h.shows, Option.isSome_map]
  rw [h.runs] at hshown
  unfold Session.start
  by_cases hstarted : s.started = true
  · rw [if_pos hstarted, if_neg]
    · exact h
    · rintro ⟨hnone, hinterval⟩
      simp [hstarted, hinterval, Option.isNone_iff_eq_none.1 hnone] at hshown
  · have hstopped : s.started = false := Bool.eq_false_of_not_eq_true hstarted
    obtain rfl : since? = none := by simpa [hstopped] using hshown
    rw [if_neg hstarted]
    refine ⟨h.configured, ?_, ?_, ?_⟩ <;>
      by_cases hinterval : config.pollIntervalSeconds = 0 <;> simp [h.configured, hinterval]

theorem Ticking.elapse (h : Ticking config since? s) (millis : Nat) :
    Ticking config (since?.map (· + millis)) (s.elapse millis) where
  configured := h.configured
  runs := h.runs
  past moment hmoment := Nat.le_add_right_of_le (h.past moment hmoment)
  shows := by
    rw [← h.shows, Option.map_map]
    refine Option.map_congr fun moment hmoment => ?_
    exact Nat.sub_add_comm (h.past moment hmoment)

theorem Ticking.any_due (h : Ticking config since? s) :
    s.polled.any (· + 1000 * s.config.pollIntervalSeconds ≤ s.now) =
      since?.any (1000 * config.pollIntervalSeconds ≤ ·) := by
  have hpast := h.past
  rw [← h.shows, h.configured]
  cases hpolled : s.polled with
  | none => rfl
  | some moment =>
    have hle := hpast moment hpolled
    simp only [Option.any_some, Option.map_some, decide_eq_decide]
    omega

theorem Ticking.tick (h : Ticking config since? s) :
    Ticking config
      (since?.map fun since => if 1000 * config.pollIntervalSeconds ≤ since then 0 else since)
      s.tick.1 := by
  have hdue := h.any_due
  have hshows := h.shows
  unfold Session.tick
  split
  · next hlate =>
    obtain ⟨moment, hpolled, -⟩ := (Option.any_eq_true _ _).1 hlate
    obtain ⟨since, rfl⟩ : ∃ since, since? = some since := by
      rw [hpolled, Option.map_some] at hshows
      exact ⟨_, hshows.symm⟩
    have hlate : 1000 * config.pollIntervalSeconds ≤ since := by simpa [hlate] using hdue.symm
    have hruns := h.runs
    rw [hpolled] at hruns
    refine ⟨h.configured, hruns, by simp [ask], ?_⟩
    simp [ask, hlate]
  · next hearly =>
    have hsame : (since?.map fun since =>
        if 1000 * config.pollIntervalSeconds ≤ since then 0 else since) = since? := by
      cases since? with
      | none => rfl
      | some since =>
        have hearly : ¬1000 * config.pollIntervalSeconds ≤ since := by simpa [hearly] using hdue.symm
        rw [Option.map_some, if_neg hearly]
    rwa [hsame]

theorem Ticking.next (h : Ticking config since? s) (input : NodeInput) :
    Ticking config (clock config.pollIntervalSeconds since? input) (s.next input) := by
  cases input with
  | request q =>
    cases hadds : (NodeInput.request q).adds? with
    | none =>
      have hsame : clock config.pollIntervalSeconds since? (.request q) = since? := by
        simp [clock, hadds]
      rw [hsame]
      exact h.of_same (sameClock_request hadds)
    | some addresses =>
      have hnext : s.next (.request q) = (s.addChildren addresses).1 := (s.serve_of_adds hadds).1
      have hstart := h.start.of_same (s.sameClock_addChildren addresses)
      rw [hnext]
      simpa [clock, hadds] using hstart
  | elapsed millis => exact h.elapse millis
  | tick => exact h.tick
  | wake n =>
    have hsame : clock config.pollIntervalSeconds since? (.wake n) = since? := by
      simp [clock, NodeInput.adds?]
    rw [hsame]
    exact h.of_same (s.sameClock_wake n)
  | reply ticket reply =>
    have hsame : clock config.pollIntervalSeconds since? (.reply ticket reply) = since? := by
      simp [clock, NodeInput.adds?]
    rw [hsame]
    exact h.of_same (s.sameClock_answer ticket reply)

theorem ticking_run (config : Config) (inputs : List NodeInput) :
    Ticking config (inputs.foldl (clock config.pollIntervalSeconds) none)
      ((ofConfig config).run inputs) := by
  induction inputs using List.reverseRecOn with
  | nil => exact ⟨rfl, rfl, nofun, rfl⟩
  | append_singleton inputs input ih =>
    rw [run_append, List.foldl_append]
    exact ih.next input

/-- At a tick that is due each of the polled children is asked for its edge updates. -/
theorem asks_tick (h : Ticking config since? s) :
    (s.asks .tick).map (fun q => (q.stage, q.child, q.discovery)) =
      if since?.any (1000 * config.pollIntervalSeconds ≤ ·) then
        s.children.map (.edgeUpdates, ·, none)
      else [] := by
  rw [← h.any_due]
  show s.tick.2.map _ = _
  unfold tick
  split
  · exact map_ask _ _ _ _ (·, ·, ·)
  · rfl

end Session

end Multidomain
