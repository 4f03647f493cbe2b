import Multidomain.Proofs.Orchestration.Turns

/-!
# Discovery goes by stages and comes to its end

Calls that add children may overlap, name children twice and name them with blanks around; children may
refuse, stay silent or answer nonsense, and their replies may come in any order. All the same each
discovery asks each of its children once for each stage, keeps the stages apart, and ends with its
children polled (`Desk.Reached`). What has to hold of a desk for that is `Desk.Orderly`, which every turn
preserves. That all discoveries end follows from a count of what is still to be answered.
-/

namespace Multidomain

theorem getElem?_concat_eq_some_iff {α : Type} {xs : List α} {x y : α} {n : Nat} :
    (xs ++ [x])[n]? = some y ↔ xs[n]? = some y ∨ (xs.length = n ∧ x = y) := by
  rw [List.getElem?_append]
  split
  · next hlt => simp [Nat.ne_of_gt hlt]
  · next hge =>
    rw [List.getElem?_eq_none (Nat.le_of_not_lt hge), List.getElem?_singleton]
    simp
    omega

/-- What is asked in a discovery, and whom, in that order. -/
def questions (n : Nat) (log : List Inquiry) : List (Stage × String) :=
  (log.filter fun q => q.discovery = some n).map fun q => (q.stage, q.child)

theorem questions_append (n : Nat) (log sent : List Inquiry) :
    questions n (log ++ sent) = questions n log ++ questions n sent := by
  rw [questions, List.filter_append, List.map_append]
  rfl

theorem questions_eq_nil {n : Nat} {log : List Inquiry} (h : ∀ q ∈ log, q.discovery ≠ some n) :
    questions n log = [] := by
  rw [questions, List.filter_eq_nil_iff.2 (by simpa using h), List.map_nil]

namespace Session

variable {s : Session} {stage : Stage} {discovery : Option Nat} {children : List String}

theorem mem_ask {q : Inquiry} (h : q ∈ (s.ask stage discovery children).2) :
    q.stage = stage ∧ q.discovery = discovery ∧ s.tickets ≤ q.ticket ∧
      q.ticket < s.tickets + children.length := by
  obtain ⟨⟨child, ticket⟩, hmem, rfl⟩ := List.mem_map.1 h
  obtain ⟨hfrom, hto, -⟩ := List.mem_zipIdx hmem
  exact ⟨rfl, rfl, hfrom, hto⟩

/-- What is read of inquiries beside ticket and abstraction is what they were sent for. -/
theorem map_ask {α : Type} (s : Session) (stage : Stage) (discovery : Option Nat)
    (children : List String) (f : Stage → String → Option Nat → α) :
    (s.ask stage discovery children).2.map (fun q => f q.stage q.child q.discovery) =
      children.map (f stage · discovery) := by
  have hchildren := congrArg (List.map (f stage · discovery)) (List.zipIdx_map_fst s.tickets children)
  rw [List.map_map] at hchildren
  rw [ask, List.map_map]
  exact hchildren

theorem nodup_tickets_ask : ((s.ask stage discovery children).2.map Inquiry.ticket).Nodup := by
  have htickets : (s.ask stage discovery children).2.map Inquiry.ticket =
      (children.zipIdx s.tickets).map Prod.snd := by
    rw [ask, List.map_map]
    rfl
  rw [htickets, List.zipIdx_map_snd]
  exact List.nodup_range' 1

theorem exists_mem_ask (s : Session) (stage : Stage) (discovery : Option Nat) (h : children ≠ []) :
    ∃ q, q ∈ (s.ask stage discovery children).2 := by
  refine List.exists_mem_of_ne_nil _ fun hnil => h ?_
  have hmap := map_ask s stage discovery children fun _ child _ => child
  rw [hnil] at hmap
  exact List.map_eq_nil_iff.1 hmap.symm

theorem questions_ask (n : Nat) : questions n (s.ask stage (some n) children).2 =
    children.map (stage, ·) := by
  rw [questions, List.filter_eq_self.2 fun q hq => decide_eq_true (mem_ask hq).2.1]
  exact map_ask s stage (some n) children fun stage child _ => (stage, child)

theorem questions_ask_of_ne {n : Nat} (h : discovery ≠ some n) :
    questions n (s.ask stage discovery children).2 = [] :=
  questions_eq_nil fun _ hq => (mem_ask hq).2.1 ▸ h

end Session

/-- An answer takes no inquiry off that belongs to another discovery. -/
theorem mem_erase_ticket_iff {pending : Roster Inquiry.ticket} {q other : Inquiry}
    (hq : q ∈ pending.items) (hne : other.discovery ≠ q.discovery) :
    other ∈ (pending.erase q.ticket).items ↔ other ∈ pending.items := by
  rw [Roster.mem_erase]
  refine and_iff_left_of_imp fun hother hticket => hne ?_
  rw [Roster.eq_of_key_eq hother hq hticket]

/-- Every open inquiry was asked under a ticket given out by now, and for a discovery that has begun. -/
structure Booked (pending : Roster Inquiry.ticket) (tickets begun : Nat) (log : List Inquiry) :
    Prop where
  fresh : ∀ q ∈ pending.items, q.ticket < tickets
  asked : ∀ q ∈ pending.items, q ∈ log
  known : ∀ q ∈ log, ∀ n, q.discovery = some n → n < begun

namespace Booked

variable {pending : Roster Inquiry.ticket} {tickets begun : Nat} {log : List Inquiry} {s : Session}
  {stage : Stage} {discovery : Option Nat} {children : List String}

theorem erase (h : Booked pending tickets begun log) (ticket : Nat) :
    Booked (pending.erase ticket) tickets begun log where
  fresh q hq := h.fresh q (Roster.mem_erase.1 hq).1
  asked q hq := h.asked q (Roster.mem_erase.1 hq).1
  known := h.known

/-- New inquiries are open beside the old ones. -/
theorem items_ask (h : Booked pending s.tickets begun log) :
    (pending.putAll (s.ask stage discovery children).2).items =
      pending.items ++ (s.ask stage discovery children).2 := by
  refine Roster.items_putAll_of_nodup ?_
  rw [List.map_append, List.nodup_append]
  refine ⟨pending.nodup_keys, Session.nodup_tickets_ask, fun ticket hold other hnew heq => ?_⟩
  obtain ⟨q, hq, rfl⟩ := List.mem_map.1 hold
  obtain ⟨new, hmem, rfl⟩ := List.mem_map.1 hnew
  have hlt := h.fresh q hq
  have hle := (Session.mem_ask hmem).2.2.1
  omega

theorem mem_ask_iff (h : Booked pending s.tickets begun log) {q : Inquiry} :
    q ∈ (pending.putAll (s.ask stage discovery children).2).items ↔
      q ∈ pending.items ∨ q ∈ (s.ask stage discovery children).2 := by
  rw [h.items_ask, List.mem_append]

theorem ask (h : Booked pending s.tickets begun log) {begun' : Nat} (hbegun : begun ≤ begun')
    (hof : ∀ n ∈ discovery, n < begun') :
    Booked (pending.putAll (s.ask stage discovery children).2) (s.tickets + children.length) begun'
      (log ++ (s.ask stage discovery children).2) where
  fresh q hq := (h.mem_ask_iff.1 hq).elim (fun hold => Nat.lt_add_right _ (h.fresh q hold))
    fun hnew => (Session.mem_ask hnew).2.2.2
  asked q hq := List.mem_append.2 ((h.mem_ask_iff.1 hq).imp_left (h.asked q))
  known q hq n hn := (List.mem_append.1 hq).elim
    (fun hold => Nat.lt_of_lt_of_le (h.known q hold n hn) hbegun)
    fun hnew => hof n ((Session.mem_ask hnew).2.1 ▸ hn)

end Booked

namespace Desk

/-- Where a discovery is. -/
inductive Standing (w : Desk) (n : Nat) (children : List String) (ahead : List Stage) : Prop
  | asking (hfind : w.discoveries.find? n = some ⟨n, children, ahead, none⟩)
      (hopen : ∃ q ∈ w.pending.items, q.discovery = some n)
  | resting {moment : Nat} (hfind : w.discoveries.find? n = some ⟨n, children, ahead, some moment⟩)
      (hnone : ∀ q ∈ w.pending.items, q.discovery ≠ some n)
  | finished (hfind : w.discoveries.find? n = none) (hahead : ahead = [])
      (hnone : ∀ q ∈ w.pending.items, q.discovery ≠ some n)
      (hpolled : ∀ child ∈ children, child ∈ w.children)

/-- A discovery has come through some stages up to the last one that it has begun. It waits for answers,
or it rests, or it is over and its children are polled. -/
structure Reached (w : Desk) (log : List Inquiry) (n : Nat) (children : List String)
    (done ahead : List Stage) : Prop where
  stages : done ++ ahead = Stage.discovery
  asked : questions n log = done.flatMap fun stage => children.map (stage, ·)
  last : ∀ q ∈ w.pending.items, q.discovery = some n → done.getLast? = some q.stage
  standing : w.Standing n children ahead

/-- The discoveries are those of the calls, each has come to some stage, and the children of those that
are over are polled. -/
structure Orderly (w : Desk) (calls : List (List String)) (log : List Inquiry) : Prop where
  begun : w.begun = calls.length
  named : ∀ children ∈ calls, children ≠ []
  booked : Booked w.pending w.tickets w.begun log
  unknown : ∀ n, w.begun ≤ n → w.discoveries.find? n = none
  reached : ∀ n children, calls[n]? = some children → ∃ done ahead,
    w.Reached log n children done ahead
  polled : ∀ child, child ∈ w.children ↔
    ∃ n children, calls[n]? = some children ∧ child ∈ children ∧ w.discoveries.find? n = none
  once : w.children.Nodup

theorem orderly_empty : Orderly ⟨[], .empty, .empty, 0, 0⟩ [] [] where
  begun := rfl
  named := by simp
  booked := ⟨nofun, nofun, nofun⟩
  unknown _ _ := rfl
  reached n children h := by simp at h
  polled child := by simp
  once := List.nodup_nil

variable {w w' : Desk} {log log' : List Inquiry} {n : Nat} {children : List String}
  {done ahead : List Stage} {calls : List (List String)}

/-- A discovery stays where it is while others move. -/
theorem Reached.frame (h : w.Reached log n children done ahead)
    (hasked : questions n log' = questions n log)
    (hpending : ∀ q, q.discovery = some n → (q ∈ w'.pending.items ↔ q ∈ w.pending.items))
    (hdiscovery : w'.discoveries.find? n = w.discoveries.find? n)
    (hchildren : ∀ child ∈ w.children, child ∈ w'.children) :
    w'.Reached log' n children done ahead := by
  refine ⟨h.stages, hasked.trans h.asked, fun q hq hof => h.last q ((hpending q hof).1 hq) hof, ?_⟩
  have hnone (hnone : ∀ q ∈ w.pending.items, q.discovery ≠ some n) :
      ∀ q ∈ w'.pending.items, q.discovery ≠ some n := fun q hq hof =>
    hnone q ((hpending q hof).1 hq) hof
  cases h.standing with
  | asking hfind hopen =>
    obtain ⟨q, hq, hof⟩ := hopen
    exact .asking (hdiscovery.trans hfind) ⟨q, (hpending q hof).2 hq, hof⟩
  | resting hfind hidle => exact .resting (hdiscovery.trans hfind) (hnone hidle)
  | finished hfind hahead hidle hpolled =>
    exact .finished (hdiscovery.trans hfind) hahead (hnone hidle)
      fun child hchild => hchildren child (hpolled child hchild)

/-- Inquiries that are sent for something else do not move it. -/
theorem Reached.frame_ask (h : w.Reached log n children done ahead) {s : Session} {stage : Stage}
    {discovery : Option Nat} {others : List String} {pending : Roster Inquiry.ticket} {begun : Nat}
    (hne : discovery ≠ some n) (hbooked : Booked pending s.tickets begun log)
    (hpending : ∀ q, q.discovery = some n → (q ∈ pending.items ↔ q ∈ w.pending.items))
    (hsent : w'.pending = pending.putAll (s.ask stage discovery others).2)
    (hdiscovery : w'.discoveries.find? n = w.discoveries.find? n)
    (hchildren : w'.children = w.children) :
    w'.Reached (log ++ (s.ask stage discovery others).2) n children done ahead := by
  refine h.frame ?_ (fun q hof => ?_) hdiscovery fun _ hchild => hchildren ▸ hchild
  · rw [questions_append, Session.questions_ask_of_ne hne, List.append_nil]
  · rw [hsent, hbooked.mem_ask_iff, ← hpending q hof]
    exact or_iff_left fun hnew => hne ((Session.mem_ask hnew).2.1.symm.trans hof)

/-- No inquiry is open once one of a later stage has been sent. -/
theorem Reached.not_open (h : w.Reached log n children done ahead) {q later : Inquiry}
    (hof : q.discovery = some n) (hlater : later ∈ log) (hlaterOf : later.discovery = some n)
    (hstage : Stage.discovery.idxOf q.stage < Stage.discovery.idxOf later.stage) :
    q ∉ w.pending.items := by
  intro hopen
  obtain ⟨before, rfl⟩ := List.getLast?_eq_some_iff.1 (h.last q hopen hof)
  have hbegun : later.stage ∈ before ++ [q.stage] := by
    have hmem : (later.stage, later.child) ∈ questions n log :=
      List.mem_map.2 ⟨later, List.mem_filter.2 ⟨hlater, decide_eq_true hlaterOf⟩, rfl⟩
    rw [h.asked, List.mem_flatMap] at hmem
    obtain ⟨stage, hstage, hmem⟩ := hmem
    obtain ⟨child, -, heq⟩ := List.mem_map.1 hmem
    exact (Prod.mk.inj heq).1 ▸ hstage
  have hnodup : (before ++ [q.stage] ++ ahead).Nodup := by
    rw [h.stages]
    decide
  have hlast : q.stage ∉ before := fun hmem =>
    (List.nodup_append.1 (List.nodup_append.1 hnodup).1).2.2 _ hmem _ (List.mem_singleton_self _) rfl
  rw [← h.stages, List.idxOf_append_of_mem hbegun, List.idxOf_append_of_mem (by simp),
    List.idxOf_append_of_notMem hlast] at hstage
  have hle := List.idxOf_lt_length_of_mem hbegun
  rw [List.length_append, List.length_singleton] at hle
  omega

theorem Reached.of_find? (h : w.Reached log n children done ahead) {d : Discovery}
    (hfind : w.discoveries.find? n = some d) :
    d.number = n ∧ d.children = children ∧ d.ahead = ahead := by
  cases h.standing with
  | asking hfind' | resting hfind' =>
    obtain rfl := Option.some.inj (hfind.symm.trans hfind')
    exact ⟨rfl, rfl, rfl⟩
  | finished hnone => cases hfind.symm.trans hnone

theorem Reached.ahead_eq_nil (h : w.Reached log n children done ahead)
    (hover : w.discoveries.find? n = none) : ahead = [] := by
  cases h.standing with
  | finished _ hahead => exact hahead
  | asking hfind | resting hfind => cases hfind.symm.trans hover

/-- What is known of a discovery that is under way. -/
theorem Orderly.of_find? (h : w.Orderly calls log) {d : Discovery}
    (hfind : w.discoveries.find? n = some d) :
    d.number = n ∧ n < w.begun ∧ calls[n]? = some d.children ∧
      ∃ done, w.Reached log n d.children done d.ahead := by
  have hlt : n < w.begun := Nat.lt_of_not_le fun hle => nomatch hfind.symm.trans (h.unknown n hle)
  obtain ⟨children, hcall⟩ : ∃ children, calls[n]? = some children :=
    ⟨_, List.getElem?_eq_getElem (h.begun ▸ hlt)⟩
  obtain ⟨done, ahead, hreached⟩ := h.reached n children hcall
  obtain ⟨hnumber, rfl, rfl⟩ := hreached.of_find? hfind
  exact ⟨hnumber, hlt, hcall, done, hreached⟩

/-- A discovery that has an open inquiry is not over. -/
theorem Orderly.exists_find? (h : w.Orderly calls log) {q : Inquiry} (hq : q ∈ w.pending.items)
    (hof : q.discovery = some n) : ∃ d, w.discoveries.find? n = some d ∧ d.answered = none := by
  have hlt : n < calls.length := h.begun ▸ h.booked.known q (h.booked.asked q hq) n hof
  obtain ⟨done, ahead, hreached⟩ := h.reached n calls[n] (List.getElem?_eq_getElem hlt)
  cases hreached.standing with
  | asking hfind => exact ⟨_, hfind, rfl⟩
  | resting _ hnone | finished _ _ hnone => exact absurd hof (hnone q hq)

/-- Nothing of a discovery is open while it rests. -/
theorem Orderly.not_open_of_answered (h : w.Orderly calls log) {d : Discovery} {moment : Nat}
    (hfind : w.discoveries.find? n = some d) (hanswered : d.answered = some moment) :
    ∀ q ∈ w.pending.items, q.discovery ≠ some n := by
  intro q hq hof
  obtain ⟨other, hfind', hnone⟩ := h.exists_find? hq hof
  obtain rfl := Option.some.inj (hfind.symm.trans hfind')
  cases hanswered.symm.trans hnone

/-- One discovery moves: the desk stays orderly if that one has got somewhere, and if its children are
polled once it is over. -/
theorem Orderly.move (h : w.Orderly calls log) {sent : List Inquiry} {d : Discovery}
    (hfind : w.discoveries.find? n = some d) (hbegun : w'.begun = w.begun)
    (hbooked : Booked w'.pending w'.tickets w'.begun (log ++ sent))
    (hsent : ∀ q ∈ sent, q.discovery = some n)
    (hpending : ∀ q, q.discovery ≠ some n → (q ∈ w'.pending.items ↔ q ∈ w.pending.items))
    (hother : ∀ m, n ≠ m → w'.discoveries.find? m = w.discoveries.find? m)
    (hself : ∃ done ahead, w'.Reached (log ++ sent) n d.children done ahead)
    (hchildren : ∀ child, child ∈ w'.children ↔
      child ∈ w.children ∨ (w'.discoveries.find? n = none ∧ child ∈ d.children))
    (honce : w'.children.Nodup) : w'.Orderly calls (log ++ sent) := by
  obtain ⟨-, hlt, hcall, -⟩ := h.of_find? hfind
  refine ⟨hbegun.trans h.begun, h.named, hbooked, fun m hm => ?_, fun m children hcall' => ?_,
    fun child => (hchildren child).trans ?_, honce⟩
  · rw [hbegun] at hm
    exact (hother m (Nat.ne_of_lt (Nat.lt_of_lt_of_le hlt hm))).trans (h.unknown m hm)
  · by_cases hn : n = m
    · subst hn
      obtain rfl := Option.some.inj (hcall.symm.trans hcall')
      exact hself
    · obtain ⟨done, ahead, hreached⟩ := h.reached m children hcall'
      have hne : some n ≠ some m := fun heq => hn (Option.some.inj heq)
      refine ⟨done, ahead, hreached.frame ?_ (fun q hof => hpending q (hof ▸ hne.symm)) (hother m hn)
        fun child hchild => (hchildren child).2 (.inl hchild)⟩
      have hnothing : questions m sent = [] := questions_eq_nil fun q hq => hsent q hq ▸ hne
      rw [questions_append, hnothing, List.append_nil]
  · constructor
    · rintro (hchild | ⟨hover, hchild⟩)
      · obtain ⟨m, children, hcall', hmem, hover⟩ := (h.polled child).1 hchild
        have hne : n ≠ m := by
          rintro rfl
          cases hfind.symm.trans hover
        exact ⟨m, children, hcall', hmem, (hother m hne).trans hover⟩
      · exact ⟨n, d.children, hcall, hchild, hover⟩
    · rintro ⟨m, children, hcall', hmem, hover⟩
      by_cases hn : n = m
      · subst hn
        obtain rfl := Option.some.inj (hcall.symm.trans hcall')
        exact .inr ⟨hover, hmem⟩
      · exact .inl ((h.polled child).2 ⟨m, children, hcall', hmem, (hother m hn).symm.trans hover⟩)

end Desk

namespace Session

variable {s : Session} {calls : List (List String)} {log : List Inquiry}

/-- The first stage of a new discovery. -/
theorem reached_begun (h : s.desk.Orderly calls log) {children : List String}
    (hsome : children ≠ []) {discoveries : Roster Discovery.number} (tickets begun : Nat)
    (hfind : discoveries.find? s.begun = some ⟨s.begun, children, [.links, .hosts], none⟩) :
    Desk.Reached
      ⟨s.children, discoveries, s.pending.putAll (s.ask .devices (some s.begun) children).2, tickets,
        begun⟩
      (log ++ (s.ask .devices (some s.begun) children).2) s.begun children [.devices]
      [.links, .hosts] := by
  have hbooked : Booked s.pending s.tickets s.begun log := h.booked
  have hnew : ∀ q ∈ log, q.discovery ≠ some s.begun := fun q hq hof =>
    Nat.lt_irrefl _ (hbooked.known q hq _ hof)
  obtain ⟨q, hq⟩ := exists_mem_ask s .devices (some s.begun) hsome
  refine ⟨rfl, ?_, fun other hother hof => ?_,
    .asking hfind ⟨q, hbooked.mem_ask_iff.2 (.inr hq), (mem_ask hq).2.1⟩⟩
  · rw [questions_append, questions_eq_nil hnew, questions_ask]
    simp
  · obtain hold | hsent := hbooked.mem_ask_iff.1 hother
    · exact absurd hof (hnew other (hbooked.asked other hold))
    · rw [(mem_ask hsent).1]
      rfl

theorem orderly_begun (h : s.desk.Orderly calls log) {children : List String}
    (hsome : children ≠ []) :
    Desk.Orderly
      { s.desk with
        discoveries := s.discoveries.put ⟨s.begun, children, [.links, .hosts], none⟩
        pending := s.pending.putAll (s.ask .devices (some s.begun) children).2
        tickets := s.tickets + children.length
        begun := s.begun + 1 }
      (calls ++ [children]) (log ++ (s.ask .devices (some s.begun) children).2) := by
  have hbegun : s.begun = calls.length := h.begun
  have hbooked : Booked s.pending s.tickets s.begun log := h.booked
  have hself := s.discoveries.find?_put_self ⟨s.begun, children, [.links, .hosts], none⟩
  have hother : ∀ n, s.begun ≠ n →
      (s.discoveries.put ⟨s.begun, children, [.links, .hosts], none⟩).find? n = s.discoveries.find? n :=
    fun n hne => s.discoveries.find?_put_of_ne hne
  have hold : ∀ n cs, calls[n]? = some cs → s.begun ≠ n := by
    rintro n cs hcall rfl
    rw [hbegun, List.getElem?_length] at hcall
    cases hcall
  have hcalls : ∀ n cs, (calls ++ [children])[n]? = some cs ↔
      calls[n]? = some cs ∨ (s.begun = n ∧ children = cs) := fun n cs => by
    rw [getElem?_concat_eq_some_iff, hbegun]
  refine ⟨?_, ?_, hbooked.ask (Nat.le_succ _) (by simp), fun n hn => ?_, fun n cs hcall => ?_,
    fun child => ?_, h.once⟩
  · rw [List.length_append]
    exact congrArg (· + 1) hbegun
  · intro cs hcs
    obtain hcs | hcs := List.mem_append.1 hcs
    · exact h.named cs hcs
    · exact List.mem_singleton.1 hcs ▸ hsome
  · exact (hother n (Nat.ne_of_lt hn)).trans (h.unknown n (Nat.le_of_lt hn))
  · obtain hcall | ⟨rfl, rfl⟩ := (hcalls n cs).1 hcall
    · obtain ⟨done, ahead, hreached⟩ := h.reached n cs hcall
      have hne := hold n cs hcall
      exact ⟨done, ahead, hreached.frame_ask (by simpa using hne) hbooked (fun _ _ => .rfl) rfl
        (hother n hne) rfl⟩
    · exact ⟨_, _, reached_begun h hsome _ _ hself⟩
  · refine (h.polled child).trans (exists_congr fun n => exists_congr fun cs => ?_)
    rw [hcalls]
    constructor
    · rintro ⟨hcall, hchild, hover⟩
      exact ⟨.inl hcall, hchild, (hother n (hold n cs hcall)).trans hover⟩
    · rintro ⟨hcall | ⟨rfl, rfl⟩, hchild, hover⟩
      · exact ⟨hcall, hchild, (hother n (hold n cs hcall)).symm.trans hover⟩
      · cases hself.symm.trans hover

/-- A poll adds inquiries that belong to no discovery. -/
theorem orderly_polled (h : s.desk.Orderly calls log) :
    Desk.Orderly
      { s.desk with
        pending := s.pending.putAll (s.ask .edgeUpdates none s.children).2
        tickets := s.tickets + s.children.length }
      calls (log ++ (s.ask .edgeUpdates none s.children).2) := by
  have hbooked : Booked s.pending s.tickets s.begun log := h.booked
  refine ⟨h.begun, h.named, hbooked.ask (Nat.le_refl _) (by simp), h.unknown, ?_, h.polled, h.once⟩
  intro n children hcall
  obtain ⟨done, ahead, hreached⟩ := h.reached n children hcall
  exact ⟨done, ahead, hreached.frame_ask (by simp) hbooked (fun _ _ => .rfl) rfl rfl rfl⟩

variable {q : Inquiry} {d : Discovery}

/-- An answer that others are still to be waited for beside. -/
theorem orderly_answered (h : s.desk.Orderly calls log) (hq : q ∈ s.pending.items)
    (hmore : ∀ d ∈ q.discovery.bind s.discoveries.find?,
      ∃ other ∈ (s.pending.erase q.ticket).items, other.discovery = some d.number) :
    Desk.Orderly { s.desk with pending := s.pending.erase q.ticket } calls log := by
  have hbooked : Booked s.pending s.tickets s.begun log := h.booked
  refine ⟨h.begun, h.named, hbooked.erase _, h.unknown, fun n children hcall => ?_, h.polled,
    h.once⟩
  obtain ⟨done, ahead, hreached⟩ := h.reached n children hcall
  by_cases hof : q.discovery = some n
  · refine ⟨done, ahead, hreached.stages, hreached.asked,
      fun other hother => hreached.last other (Roster.mem_erase.1 hother).1, ?_⟩
    cases hreached.standing with
    | asking hfind => exact .asking hfind (hmore _ (Option.bind_eq_some_iff.2 ⟨n, hof, hfind⟩))
    | resting _ hnone | finished _ _ hnone => exact absurd hof (hnone q hq)
  · refine ⟨done, ahead, hreached.frame rfl (fun other hother => ?_) rfl fun _ hchild => hchild⟩
    exact mem_erase_ticket_iff hq fun heq => hof (heq.symm.trans hother)

/-- With the last answer of a stage the discovery comes to rest. -/
theorem orderly_resting (h : s.desk.Orderly calls log) (hq : q ∈ s.pending.items)
    (hd : q.discovery.bind s.discoveries.find? = some d)
    (hlast : ∀ other ∈ (s.pending.erase q.ticket).items, other.discovery ≠ some d.number) :
    Desk.Orderly
      { s.desk with
        discoveries := s.discoveries.put { d with answered := some s.now }
        pending := s.pending.erase q.ticket }
      calls log := by
  obtain ⟨n, hof, hfind⟩ := Option.bind_eq_some_iff.1 hd
  obtain ⟨rfl, hlt, hcall, done, hreached⟩ := h.of_find? hfind
  have hbooked : Booked s.pending s.tickets s.begun log := h.booked
  have hself := s.discoveries.find?_put_self { d with answered := some s.now }
  rw [← List.append_nil log]
  refine h.move hfind rfl ((List.append_nil log).symm ▸ hbooked.erase q.ticket) (by simp)
    (fun other hne => mem_erase_ticket_iff hq (hof ▸ hne))
    (fun m hne => s.discoveries.find?_put_of_ne hne)
    ⟨done, d.ahead, hreached.stages, (List.append_nil log).symm ▸ hreached.asked,
      fun other hother hof' => absurd hof' (hlast other hother), .resting hself hlast⟩
    (fun child => (or_iff_left ?_).symm) h.once
  rintro ⟨hover, -⟩
  cases hself.symm.trans hover

/-- After the rest the next stage begins. -/
theorem orderly_advanced (h : s.desk.Orderly calls log)
    (hfind : s.discoveries.find? d.number = some d) (hrested : s.Rested d)
    {stage : Stage} {ahead : List Stage} (hahead : d.ahead = stage :: ahead) :
    Desk.Orderly
      { s.desk with
        discoveries := s.discoveries.put { d with ahead, answered := none }
        pending := s.pending.putAll (s.ask stage (some d.number) d.children).2
        tickets := s.tickets + d.children.length }
      calls (log ++ (s.ask stage (some d.number) d.children).2) := by
  obtain ⟨-, hlt, hcall, done, hreached⟩ := h.of_find? hfind
  obtain ⟨moment, hanswered, -⟩ := hrested
  have hidle := h.not_open_of_answered hfind hanswered
  have hbooked : Booked s.pending s.tickets s.begun log := h.booked
  have hself := s.discoveries.find?_put_self { d with ahead, answered := none }
  obtain ⟨new, hnew⟩ := exists_mem_ask s stage (some d.number)
    (h.named _ (List.mem_of_getElem? hcall))
  refine h.move hfind rfl
    (hbooked.ask (Nat.le_refl _) fun n hn => Option.mem_some_iff.1 hn ▸ hlt)
    (fun q hq => (mem_ask hq).2.1)
    (fun other hne => hbooked.mem_ask_iff.trans (or_iff_left fun hmem => hne (mem_ask hmem).2.1))
    (fun m hne => s.discoveries.find?_put_of_ne hne)
    ⟨done ++ [stage], ahead, ?_, ?_, fun other hmem hof => ?_,
      .asking hself ⟨new, hbooked.mem_ask_iff.2 (.inr hnew), (mem_ask hnew).2.1⟩⟩
    (fun child => (or_iff_left ?_).symm) h.once
  · rw [List.append_assoc, List.singleton_append, ← hahead, hreached.stages]
  · rw [questions_append, hreached.asked, questions_ask, List.flatMap_append,
      List.flatMap_singleton]
  · obtain hold | hsent := hbooked.mem_ask_iff.1 hmem
    · exact absurd hof (hidle other hold)
    · rw [(mem_ask hsent).1, List.getLast?_concat]
  · rintro ⟨hover, -⟩
    cases hself.symm.trans hover

/-- After the last rest the children are polled. -/
theorem orderly_ended (h : s.desk.Orderly calls log)
    (hfind : s.discoveries.find? d.number = some d) (hrested : s.Rested d) (hahead : d.ahead = []) :
    Desk.Orderly
      { s.desk with
        children := inOrder (s.children ++ d.children)
        discoveries := s.discoveries.erase d.number }
      calls log := by
  obtain ⟨-, hlt, hcall, done, hreached⟩ := h.of_find? hfind
  obtain ⟨moment, hanswered, -⟩ := hrested
  have hidle := h.not_open_of_answered hfind hanswered
  have hself : (s.discoveries.erase d.number).find? d.number = none :=
    s.discoveries.find?_erase_self d.number
  have hchildren : ∀ child, child ∈ inOrder (s.children ++ d.children) ↔
      child ∈ s.children ∨ child ∈ d.children := fun child => by
    rw [mem_inOrder, List.mem_append]
  rw [← List.append_nil log]
  refine h.move hfind rfl ((List.append_nil log).symm ▸ h.booked) (by simp) (fun _ _ => .rfl)
    (fun m hne => (s.discoveries.find?_erase d.number m).trans (if_neg (Ne.symm hne)))
    ⟨done, [], hahead ▸ hreached.stages, (List.append_nil log).symm ▸ hreached.asked,
      hreached.last, .finished hself rfl hidle fun child hchild => (hchildren child).2 (.inr hchild)⟩
    (fun child => (hchildren child).trans (or_congr_right (and_iff_right hself).symm))
    (nodup_eraseDups _)

/-- Every turn keeps a desk orderly. -/
theorem orderly_turn (h : s.desk.Orderly calls log) {input : NodeInput} {w : Desk}
    {sent : List Inquiry} (hturn : s.Turn input w sent) :
    w.Orderly (calls ++ input.call?.toList) (log ++ sent) := by
  cases hturn with
  | idle hcall =>
    rw [hcall, Option.toList_none, List.append_nil, List.append_nil]
    exact h
  | begun hcall =>
    rw [hcall]
    exact orderly_begun h (NodeInput.ne_nil_of_call? hcall)
  | polled =>
    have hcall : NodeInput.tick.call? = none := rfl
    rw [hcall, Option.toList_none, List.append_nil]
    exact orderly_polled h
  | answered hq reply hmore =>
    rw [List.append_nil]
    exact (List.append_nil calls).symm ▸ orderly_answered h hq hmore
  | resting hq reply hd hlast =>
    rw [List.append_nil]
    exact (List.append_nil calls).symm ▸ orderly_resting h hq hd hlast
  | advanced hd hrested hahead =>
    exact (List.append_nil calls).symm ▸ orderly_advanced h hd hrested hahead
  | ended hd hrested hahead =>
    rw [List.append_nil]
    exact (List.append_nil calls).symm ▸ orderly_ended h hd hrested hahead

theorem asked_append (s : Session) (inputs more : List NodeInput) :
    s.asked (inputs ++ more) = s.asked inputs ++ (s.run inputs).asked more := by
  induction inputs generalizing s with
  | nil => rfl
  | cons input rest ih =>
    rw [List.cons_append, asked, asked, ih, List.append_assoc]
    rfl

theorem run_append (s : Session) (inputs more : List NodeInput) :
    s.run (inputs ++ more) = (s.run inputs).run more := List.foldl_append

/-- At every moment in the life of a session its desk is orderly. -/
theorem orderly_run (config : Config) (inputs : List NodeInput) :
    ((ofConfig config).run inputs).desk.Orderly (inputs.filterMap NodeInput.call?)
      ((ofConfig config).asked inputs) := by
  induction inputs using List.reverseRecOn with
  | nil => exact Desk.orderly_empty
  | append_singleton inputs input ih =>
    rw [run_append, asked_append, List.filterMap_append]
    have hcalls : [input].filterMap NodeInput.call? = input.call?.toList := by
      cases hcall : input.call? <;> simp [hcall]
    have hsent : ((ofConfig config).run inputs).asked [input] =
        ((ofConfig config).run inputs).asks input := List.append_nil _
    rw [hcalls, hsent]
    exact orderly_turn ih (Session.turn _ input)

end Session

end Multidomain
