import Multidomain.Proofs.Orchestration.OrderedDiscovery

/-!
# What a session has still to hear

What is still to come is counted, in all and for each discovery by itself. An answer to an open inquiry
makes it one less, whatever the answer is; in the count of all so does the end of a rest.
-/

namespace Multidomain

/-- The inquiries that a discovery has yet to send. -/
def Discovery.remaining (d : Discovery) : Nat := d.ahead.length * d.children.length

theorem Discovery.remaining_eq_zero {d : Discovery} (h : d.ahead = []) : d.remaining = 0 := by
  rw [remaining, h, List.length_nil, Nat.zero_mul]

theorem Discovery.remaining_of_cons {d : Discovery} {stage : Stage} {ahead : List Stage}
    (h : d.ahead = stage :: ahead) (answered : Option Nat) :
    d.remaining = remaining { d with ahead, answered } + d.children.length := by
  rw [remaining, h, List.length_cons, Nat.succ_mul]
  rfl

theorem Discovery.turnsOf_place (before after : List Discovery) (d : Discovery) :
    turnsOf (before ++ d :: after) = turnsOf (before ++ after) + d.turns := by
  induction before with
  | nil => exact Nat.add_comm ..
  | cons other before ih =>
    rw [List.cons_append, List.cons_append, turnsOf, turnsOf, ih, Nat.add_assoc]

/-- How many answers and ends of a rest are still to come before all discoveries are over. -/
def Desk.workload (w : Desk) : Nat :=
  w.pending.size + Discovery.turnsOf w.discoveries.items

/-- How many answers are still to come before one of them only has to rest. -/
def Desk.left (w : Desk) (n : Nat) : Nat :=
  w.pending.items.countP (fun q => q.discovery = some n) +
    (w.discoveries.find? n).elim 0 Discovery.remaining

namespace Session

variable {s : Session} {calls : List (List String)} {log : List Inquiry}

theorem length_ask (stage : Stage) (discovery : Option Nat) (children : List String) :
    (s.ask stage discovery children).2.length = children.length := by
  rw [ask, List.length_map, List.length_zipIdx]

/-- An inquiry that is answered is open no longer. -/
theorem countP_erase {q : Inquiry} (hq : q ∈ s.pending.items) (p : Inquiry → Bool) :
    (s.pending.erase q.ticket).items.countP p + (p q).toNat = s.pending.items.countP p := by
  obtain ⟨before, after, hitems, herase, -⟩ := Roster.exists_place (Roster.mem_items_iff.1 hq)
  rw [hitems, herase, List.countP_append, List.countP_append, List.countP_cons]
  cases p q <;> simp [Nat.add_assoc]

theorem size_erase {q : Inquiry} (hq : q ∈ s.pending.items) :
    (s.pending.erase q.ticket).size + 1 = s.pending.size := by
  simpa only [Roster.size, List.countP_true, Bool.toNat_true] using countP_erase hq fun _ => true

/-- The turns of a discovery are its part of the sum. -/
theorem turnsOf_eq_add {d : Discovery} (hd : s.discoveries.find? d.number = some d) :
    ∃ rest : Nat, Discovery.turnsOf s.discoveries.items = rest + d.turns ∧
      Discovery.turnsOf (s.discoveries.erase d.number).items = rest ∧
      ∀ d' : Discovery, d'.number = d.number →
        Discovery.turnsOf (s.discoveries.put d').items = rest + d'.turns := by
  obtain ⟨before, after, hitems, herase, hput⟩ := Roster.exists_place hd
  refine ⟨Discovery.turnsOf (before ++ after), ?_, by rw [herase], fun d' hnumber => ?_⟩
  · rw [hitems, Discovery.turnsOf_place]
  · rw [hput d' hnumber, Discovery.turnsOf_place]

/-- An answer to an open inquiry, whatever it is, and the end of a rest leave one turn less to come. -/
theorem workload_turn (h : s.desk.Orderly calls log) {input : NodeInput} {w : Desk}
    {sent : List Inquiry} (hturn : s.Turn input w sent)
    (hmoves : (∃ q ∈ s.pending.items, ∃ reply, input = .reply q.ticket reply) ∨
      ∃ d, s.discoveries.find? d.number = some d ∧ s.Rested d ∧ input = .wake d.number) :
    w.workload + 1 = s.desk.workload := by
  cases hturn with
  | idle _ hreply hwake =>
    obtain ⟨q, hq, reply, heq⟩ | ⟨d, hd, hrested, heq⟩ := hmoves
    · exact absurd heq (hreply q hq reply)
    · exact absurd hrested (hwake _ d hd heq)
  | begun hcall =>
    obtain ⟨_, _, _, rfl⟩ | ⟨_, _, _, rfl⟩ := hmoves <;> cases hcall
  | polled =>
    obtain ⟨_, _, _, heq⟩ | ⟨_, _, _, heq⟩ := hmoves <;> cases heq
  | @answered q hq =>
    have hsize := size_erase hq
    simp only [Desk.workload, desk]
    omega
  | @resting q hq _ d hd =>
    have hsize := size_erase hq
    obtain ⟨n, -, hfind⟩ := Option.bind_eq_some_iff.1 hd
    obtain rfl : d.number = n := Roster.key_of_find? hfind
    obtain ⟨rest, hold, -, hnew⟩ := turnsOf_eq_add hfind
    have hturns : Discovery.turns { d with answered := some s.now } = d.turns := rfl
    simp only [Desk.workload, desk]
    rw [hold, hnew { d with answered := some s.now } rfl, hturns]
    omega
  | @advanced d hd _ stage ahead hahead =>
    have hbooked : Booked s.pending s.tickets s.begun log := h.booked
    have hsent : (s.pending.putAll (s.ask stage (some d.number) d.children).2).size =
        s.pending.size + d.children.length := by
      rw [Roster.size, hbooked.items_ask, List.length_append, length_ask]
      rfl
    obtain ⟨rest, hold, -, hnew⟩ := turnsOf_eq_add hd
    have hturns : d.turns =
        Discovery.turns { d with ahead, answered := none } + (d.children.length + 1) := by
      simp only [Discovery.turns, hahead, List.length_cons, Nat.succ_mul]
      omega
    simp only [Desk.workload, desk]
    rw [hsent, hold, hnew { d with ahead, answered := none } rfl, hturns]
    omega
  | @ended d hd _ hahead =>
    obtain ⟨rest, hold, hnew, -⟩ := turnsOf_eq_add hd
    have hturns : d.turns = 1 := by
      rw [Discovery.turns, hahead, List.length_nil, Nat.zero_mul]
    simp only [Desk.workload, desk]
    rw [hold, hnew, hturns]
    omega

/-- Where nothing is to come, nothing is open and all discoveries are over. -/
theorem eq_nil_of_workload (h : s.workload = 0) :
    s.pending.items = [] ∧ s.discoveries.items = [] := by
  obtain ⟨hopen, hturns⟩ := Nat.add_eq_zero_iff.1 h
  refine ⟨List.eq_nil_of_length_eq_zero hopen, List.eq_nil_iff_forall_not_mem.2 fun d hd => ?_⟩
  obtain ⟨rest, hsum, -⟩ := turnsOf_eq_add (Roster.mem_items_iff.1 hd)
  have hnothing := hsum.symm.trans hturns
  rw [Discovery.turns] at hnothing
  omega

/-! ### Each discovery by itself -/

theorem countP_ask (stage : Stage) (discovery : Option Nat) (children : List String) (n : Nat) :
    (s.ask stage discovery children).2.countP (fun q => q.discovery = some n) =
      if discovery = some n then children.length else 0 := by
  split
  · next heq =>
    rw [List.countP_eq_length.2 fun q hq => decide_eq_true ((mem_ask hq).2.1.trans heq), length_ask]
  · next hne =>
    refine List.countP_eq_zero.2 fun q hq hof => hne ?_
    exact (mem_ask hq).2.1.symm.trans (of_decide_eq_true hof)

/-- Whether an input answers an open inquiry of a discovery. -/
def answersIn (s : Session) (n : Nat) : NodeInput → Bool
  | .reply ticket _ => (s.pending.find? ticket).any fun q => q.discovery = some n
  | .request _ | .elapsed _ | .tick | .wake _ => false

theorem answersIn_reply {q : Inquiry} (hq : q ∈ s.pending.items) (reply : ChildReply) (n : Nat) :
    s.answersIn n (.reply q.ticket reply) = decide (q.discovery = some n) := by
  rw [answersIn, Roster.mem_items_iff.1 hq, Option.any_some]

theorem answersIn_eq_false {input : NodeInput}
    (h : ∀ q ∈ s.pending.items, ∀ reply, input ≠ .reply q.ticket reply) (n : Nat) :
    s.answersIn n input = false := by
  cases input with
  | request | elapsed | tick | wake => rfl
  | reply ticket reply =>
    cases hfind : s.pending.find? ticket with
    | none => rw [answersIn, hfind, Option.any_none]
    | some q =>
      exact absurd (by rw [Roster.key_of_find? hfind]) (h q (Roster.mem_of_find? hfind) reply)

/-- An input that adds children answers nothing. -/
theorem answersIn_of_call {input : NodeInput} {children : List String}
    (h : input.call? = some children) (n : Nat) : s.answersIn n input = false := by
  refine answersIn_eq_false ?_ n
  rintro q - reply rfl
  cases h

/-- What is sent is open beside what was open before. -/
theorem countP_putAll_ask (h : Booked s.pending s.tickets s.begun log) (stage : Stage)
    (discovery : Option Nat) (children : List String) (n : Nat) :
    (s.pending.putAll (s.ask stage discovery children).2).items.countP
        (fun q => q.discovery = some n) =
      s.pending.items.countP (fun q => q.discovery = some n) +
        if discovery = some n then children.length else 0 := by
  rw [h.items_ask, List.countP_append, countP_ask]

theorem remaining_put (discoveries : Roster Discovery.number) (d : Discovery) (n : Nat) :
    ((discoveries.put d).find? n).elim 0 Discovery.remaining =
      if d.number = n then d.remaining else (discoveries.find? n).elim 0 Discovery.remaining := by
  rw [Roster.find?_put]
  split <;> rfl

theorem remaining_erase {d : Discovery} {discoveries : Roster Discovery.number}
    (hd : discoveries.find? d.number = some d) (hahead : d.ahead = []) (n : Nat) :
    ((discoveries.erase d.number).find? n).elim 0 Discovery.remaining =
      (discoveries.find? n).elim 0 Discovery.remaining := by
  rw [Roster.find?_erase]
  split
  · next heq =>
    rw [heq, hd, Option.elim_none, Option.elim_some, Discovery.remaining_eq_zero hahead]
  · rfl

/-- An answer brings its own discovery nearer to its end, and nothing ever takes it farther away. -/
theorem left_turn (h : s.desk.Orderly calls log) {n : Nat} (hn : n < s.begun) {input : NodeInput}
    {w : Desk} {sent : List Inquiry} (hturn : s.Turn input w sent) :
    w.left n + (s.answersIn n input).toNat = s.desk.left n := by
  have hbooked : Booked s.pending s.tickets s.begun log := h.booked
  have herased {q : Inquiry} (hq : q ∈ s.pending.items) (reply : ChildReply) :
      (s.pending.erase q.ticket).items.countP (fun q => q.discovery = some n) +
          (s.answersIn n (.reply q.ticket reply)).toNat =
        s.pending.items.countP (fun q => q.discovery = some n) := by
    rw [answersIn_reply hq]
    exact countP_erase hq fun other => other.discovery = some n
  cases hturn with
  | idle _ hreply => rw [answersIn_eq_false hreply, Bool.toNat_false, Nat.add_zero]
  | begun hcall =>
    have hne : s.begun ≠ n := Nat.ne_of_gt hn
    rw [answersIn_of_call hcall, Bool.toNat_false, Nat.add_zero]
    simp only [Desk.left, countP_putAll_ask hbooked, remaining_put, Option.some.injEq, hne, if_false]
    rfl
  | polled =>
    simp only [Desk.left, countP_putAll_ask hbooked, reduceCtorEq, if_false]
    rfl
  | @answered q hq reply =>
    have hcount := herased hq reply
    simp only [Desk.left, desk]
    omega
  | @resting q hq reply d hd =>
    have hcount := herased hq reply
    obtain ⟨m, -, hfind⟩ := Option.bind_eq_some_iff.1 hd
    obtain rfl : d.number = m := Roster.key_of_find? hfind
    have hsame : ((s.discoveries.put { d with answered := some s.now }).find? n).elim 0
        Discovery.remaining = (s.discoveries.find? n).elim 0 Discovery.remaining := by
      rw [remaining_put]
      split
      · next hnumber =>
        rw [← hnumber, hfind]
        rfl
      · rfl
    simp only [Desk.left, desk, hsame]
    omega
  | @advanced d hd _ stage ahead hahead =>
    simp only [Desk.left, desk, countP_putAll_ask hbooked, remaining_put, Option.some.injEq]
    split
    · next hnumber =>
      have hremaining := Discovery.remaining_of_cons hahead none
      rw [← hnumber, hd, Option.elim_some]
      simp only [answersIn, Bool.toNat_false]
      omega
    · rfl
  | ended hd _ hahead =>
    simp only [Desk.left, desk, remaining_erase hd hahead]
    rfl

/-- Where no answer is to come, nothing is open and no stage is ahead. -/
theorem idle_of_left (h : s.desk.Orderly calls log) {n : Nat} {children : List String}
    {done ahead : List Stage} (hcall : calls[n]? = some children)
    (hreached : s.desk.Reached log n children done ahead) (hleft : s.desk.left n = 0) :
    (∀ q ∈ s.pending.items, q.discovery ≠ some n) ∧ ahead = [] := by
  obtain ⟨hcount, hremaining⟩ := Nat.add_eq_zero_iff.1 hleft
  refine ⟨fun q hq hof => List.countP_eq_zero.1 hcount q hq (decide_eq_true hof), ?_⟩
  cases hreached.standing with
  | finished _ hahead => exact hahead
  | asking hfind | resting hfind =>
    rw [hfind, Option.elim_some] at hremaining
    refine (Nat.mul_eq_zero.1 hremaining).elim List.length_eq_zero_iff.1 fun hnobody => ?_
    exact absurd (List.length_eq_zero_iff.1 hnobody) (h.named _ (List.mem_of_getElem? hcall))

end Session

end Multidomain
