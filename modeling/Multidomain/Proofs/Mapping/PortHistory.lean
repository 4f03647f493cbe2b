import Mathlib.Data.List.DropRight
import Mathlib.Data.List.Induction
import Mathlib.Data.List.Nodup
import Multidomain.Proofs.Mapping.InPlace
import Multidomain.Proofs.Mapping.PortBook
import Multidomain.Proofs.Orchestration.History
import Multidomain.Proofs.Roster

/-!
# Ports are numbered without gaps

What a port book answers can be told from what was done to it. A port space lives from the first opening
after the last clearing, and the ports that it gives out are numbered from one, in the order in which
their connect points were allocated first: `PortOp.allocated` lists them, read off the operations alone,
and `points_after` says that this list is the port space. From there on the book need not be opened any
more.
-/

namespace Multidomain

/-- Something that is done to the port spaces of virtual devices. -/
inductive PortOp where
  | openSpace (device : DeviceId)
  | allocate (device : DeviceId) (point : ConnectPoint)
  | clear
  deriving DecidableEq, Repr

namespace PortOp

def isAllocation : PortOp → Bool
  | allocate _ _ => true
  | openSpace _ | clear => false

/-- The connect point that is allocated on the device. -/
def pointOn? (device : DeviceId) : PortOp → Option ConnectPoint
  | allocate other point => if other = device then some point else none
  | openSpace _ | clear => none

/-- What was done after everything was cleared last. -/
def sinceClear (ops : List PortOp) : List PortOp := ops.rtakeWhile (· ≠ clear)

/-- What was done after everything was cleared last, from the first opening of the device on. -/
def sinceOpening (device : DeviceId) (ops : List PortOp) : List PortOp :=
  (sinceClear ops).dropWhile (· ≠ openSpace device)

/-- The connect points that were allocated on the device in its present port space, each listed where it
came first. -/
def allocated (device : DeviceId) (ops : List PortOp) : List ConnectPoint :=
  ((sinceOpening device ops).filterMap (pointOn? device)).eraseDups

/-- The device has been opened after everything was cleared last. -/
def Opened (device : DeviceId) (ops : List PortOp) : Prop := openSpace device ∈ sinceClear ops

instance (device : DeviceId) (ops : List PortOp) : Decidable (Opened device ops) :=
  inferInstanceAs (Decidable (openSpace device ∈ sinceClear ops))

variable {device : DeviceId} {ops : List PortOp} {op : PortOp}

theorem sinceClear_concat (ops : List PortOp) (hop : op ≠ clear) :
    sinceClear (ops ++ [op]) = sinceClear ops ++ [op] :=
  List.rtakeWhile_concat_pos _ _ _ (by simpa using hop)

@[simp] theorem sinceClear_concat_clear (ops : List PortOp) : sinceClear (ops ++ [clear]) = [] := by
  simp [sinceClear]

theorem opened_concat (hop : op ≠ clear) :
    Opened device (ops ++ [op]) ↔ Opened device ops ∨ op = openSpace device := by
  rw [Opened, sinceClear_concat ops hop, List.mem_append, List.mem_singleton, eq_comm (a := op)]
  rfl

theorem not_opened_concat_clear : ¬ Opened device (ops ++ [clear]) := by
  simp [Opened]

theorem sinceOpening_eq_nil (h : ¬ Opened device ops) : sinceOpening device ops = [] := by
  rw [sinceOpening, List.dropWhile_eq_nil_iff]
  intro op hop
  have hne : op ≠ openSpace device := by
    rintro rfl
    exact h hop
  simpa using hne

theorem sinceOpening_ne_nil (h : Opened device ops) : sinceOpening device ops ≠ [] := by
  intro hnil
  rw [sinceOpening, List.dropWhile_eq_nil_iff] at hnil
  simpa using hnil _ h

theorem sinceOpening_concat (h : Opened device ops) (hop : op ≠ clear) :
    sinceOpening device (ops ++ [op]) = sinceOpening device ops ++ [op] := by
  have hsome := sinceOpening_ne_nil h
  rw [sinceOpening, sinceClear_concat ops hop, List.dropWhile_append, if_neg]
  · rfl
  · simpa [sinceOpening] using hsome

theorem sinceOpening_concat_openSpace (h : ¬ Opened device ops) :
    sinceOpening device (ops ++ [openSpace device]) = [openSpace device] := by
  have hnil : (sinceClear ops).dropWhile (· ≠ openSpace device) = [] := sinceOpening_eq_nil h
  rw [sinceOpening, sinceClear_concat ops (nofun : openSpace device ≠ .clear),
    List.dropWhile_append, hnil]
  simp

theorem allocated_eq_nil (h : ¬ Opened device ops) : allocated device ops = [] := by
  rw [allocated, sinceOpening_eq_nil h]
  rfl

/-- Only an allocation in an open port space adds a connect point, and only one that is not there. -/
theorem allocated_concat (hop : op ≠ clear) :
    allocated device (ops ++ [op]) = allocated device ops ++
      (op.pointOn? device).toList.filter fun point =>
        Opened device ops ∧ point ∉ allocated device ops := by
  by_cases hopened : Opened device ops
  · simp only [allocated, sinceOpening_concat hopened hop, List.filterMap_append,
      List.eraseDups_append, List.mem_eraseDups, hopened, true_and]
    congr 1
    generalize (sinceOpening device ops).filterMap (pointOn? device) = points
    cases hpoint : op.pointOn? device with
    | none => simp [hpoint, List.removeAll]
    | some point =>
      by_cases hold : point ∈ points
      · simp [hpoint, List.removeAll, hold]
      · simp [hpoint, List.removeAll, hold, List.eraseDups_cons]
  · have hafter : allocated device (ops ++ [op]) = [] := by
      by_cases hnow : Opened device (ops ++ [op])
      · obtain rfl := ((opened_concat hop).1 hnow).resolve_left hopened
        rw [allocated, sinceOpening_concat_openSpace hopened]
        rfl
      · exact allocated_eq_nil hnow
    simp [hafter, allocated_eq_nil hopened, hopened]

theorem allocated_concat_clear : allocated device (ops ++ [clear]) = [] :=
  allocated_eq_nil not_opened_concat_clear

theorem allocated_concat_openSpace (device other : DeviceId) (ops : List PortOp) :
    allocated device (ops ++ [openSpace other]) = allocated device ops := by
  rw [allocated_concat (nofun : openSpace other ≠ .clear), pointOn?, Option.toList_none,
    List.filter_nil, List.append_nil]

theorem allocated_concat_allocate (device other : DeviceId) (point : ConnectPoint)
    (ops : List PortOp) :
    allocated device (ops ++ [allocate other point]) =
      if other = device ∧ Opened device ops ∧ point ∉ allocated device ops
      then allocated device ops ++ [point]
      else allocated device ops := by
  rw [allocated_concat (nofun : allocate other point ≠ .clear), pointOn?]
  by_cases hsame : other = device
  · by_cases hnew : Opened device ops ∧ point ∉ allocated device ops
    · rw [if_pos hsame, if_pos ⟨hsame, hnew⟩, Option.toList_some, List.filter_cons_of_pos (by simpa)]
      rfl
    · rw [if_pos hsame, if_neg (fun h => hnew h.2), Option.toList_some,
        List.filter_cons_of_neg (by simpa using hnew), List.filter_nil, List.append_nil]
  · rw [if_neg hsame, if_neg (fun h => hsame h.1), Option.toList_none, List.filter_nil,
      List.append_nil]

theorem nodup_allocated (device : DeviceId) (ops : List PortOp) : (allocated device ops).Nodup := by
  induction ops using List.reverseRecOn with
  | nil => exact List.nodup_nil
  | append_singleton ops op ih =>
    cases op with
    | clear =>
      rw [allocated_concat_clear]
      exact List.nodup_nil
    | openSpace other => rwa [allocated_concat_openSpace]
    | allocate other point =>
      rw [allocated_concat_allocate]
      split
      · next hnew =>
        rw [← List.concat_eq_append]
        exact List.Nodup.concat hnew.2.2 ih
      · exact ih

theorem length_allocated_le (device : DeviceId) (ops : List PortOp) :
    (allocated device ops).length ≤ ops.countP isAllocation := by
  induction ops using List.reverseRecOn with
  | nil => exact Nat.le_refl _
  | append_singleton ops op ih =>
    rw [List.countP_append, List.countP_singleton]
    cases op with
    | clear =>
      rw [allocated_concat_clear]
      exact Nat.zero_le _
    | openSpace other =>
      rw [allocated_concat_openSpace]
      exact Nat.le_add_right_of_le ih
    | allocate other point =>
      rw [allocated_concat_allocate, isAllocation, if_pos rfl]
      split
      · rw [List.length_append, List.length_singleton]
        exact Nat.succ_le_succ ih
      · exact Nat.le_add_right_of_le ih

end PortOp

namespace PortSpace

variable {s : PortSpace} {points : List ConnectPoint} {point : ConnectPoint} {port : PortNumber}

theorem toNat_portAt {k : Nat} (h : k + 1 < 2 ^ 64) : (portAt k).toNat = k + 1 :=
  UInt64.toNat_ofNat_of_lt' h

/-- While the 64 bits of a port number suffice, the port of a connect point is its place in the list,
counted from one. -/
theorem mem_and_eq_portAt_iff (hnodup : points.Nodup) (hlength : points.length < 2 ^ 64) :
    point ∈ points ∧ port = portAt (points.idxOf point) ↔
      1 ≤ port.toNat ∧ points[port.toNat - 1]? = some point := by
  constructor
  · rintro ⟨hmem, rfl⟩
    have hindex : points.idxOf point < points.length := List.idxOf_lt_length_iff.2 hmem
    rw [toNat_portAt (by omega), Nat.add_sub_cancel]
    exact ⟨Nat.le_add_left 1 _, List.getElem?_idxOf hmem⟩
  · rintro ⟨hpos, hpoint⟩
    obtain ⟨hindex, rfl⟩ := List.getElem?_eq_some_iff.1 hpoint
    refine ⟨List.getElem_mem hindex, UInt64.toNat_inj.1 ?_⟩
    rw [hnodup.idxOf_getElem, toNat_portAt (by omega)]
    omega

theorem point?_eq_some_iff (hlength : s.points.length < 2 ^ 64) :
    s.point? port = some point ↔ point ∈ s.points ∧ port = s.portAfter point := by
  constructor
  · intro h
    have hport : s.portAfter point = port := by simpa using List.find?_some h
    exact ⟨List.mem_reverse.1 (List.mem_of_find?_eq_some h), hport.symm⟩
  · rintro ⟨hmem, rfl⟩
    exact point?_portAfter hmem hlength

theorem point?_eq (hlength : s.points.length < 2 ^ 64) (port : PortNumber) :
    s.point? port = if 1 ≤ port.toNat then s.points[port.toNat - 1]? else none := by
  refine Option.ext fun point => ?_
  rw [point?_eq_some_iff hlength, Option.ite_none_right_eq_some]
  exact mem_and_eq_portAt_iff s.nodup_points hlength

end PortSpace

namespace PortBook

/-- The book after an operation. -/
def act (b : PortBook) : PortOp → PortBook
  | .openSpace device => b.openSpace device
  | .allocate device point => stateAfter (allocateInPlace device point) b
  | .clear => .empty

/-- What operations make of the book without port spaces. -/
def after (ops : List PortOp) : PortBook := ops.foldl act .empty

/-- The port was given to the connect point since everything was cleared last. -/
def GivenOut (ops : List PortOp) (device : DeviceId) (point : ConnectPoint) (port : PortNumber) :
    Prop :=
  ∃ before rest, ops = before ++ .allocate device point :: rest ∧ .clear ∉ rest ∧
    (allocateInPlace device point).run' (after before) = some port

variable {b : PortBook} {device : DeviceId} {point : ConnectPoint} {port : PortNumber}
variable {ops : List PortOp}

theorem after_concat (ops : List PortOp) (op : PortOp) : after (ops ++ [op]) = (after ops).act op := by
  rw [after, List.foldl_append]
  rfl

theorem allocate_of_space {space : PortSpace} (h : Table.get? b device = some space)
    (point : ConnectPoint) :
    b.allocate device point
      = .ok (Table.set b device (space.allocate point), space.portAfter point) := by
  rw [allocate, h]

theorem allocate_of_none (h : Table.get? b device = none) (point : ConnectPoint) :
    b.allocate device point = .error (.notInitialized device) := by
  rw [allocate, h]

theorem act_allocate (b : PortBook) (device : DeviceId) (point : ConnectPoint) :
    b.act (.allocate device point) =
      match Table.get? b device with
      | none => b
      | some space => Table.set b device (space.allocate point) := by
  rw [act, stateAfter, run_allocateInPlace, allocate]
  cases Table.get? b device <;> rfl

theorem get?_openSpace_eq (b : PortBook) (device other : DeviceId) :
    Table.get? (b.openSpace device) other =
      if device = other then some ((Table.get? b other).getD .empty) else Table.get? b other := by
  unfold openSpace
  rw [Table.contains_eq_isSome_get?]
  cases hspace : Table.get? b device with
  | none =>
    rw [if_neg (by simp), Table.get?_set]
    split
    · next hsame => rw [← hsame, hspace]; rfl
    · rfl
  | some space =>
    rw [if_pos (by rfl)]
    split
    · next hsame => rw [← hsame, hspace]; rfl
    · rfl

theorem points_openSpace (b : PortBook) (other device : DeviceId) :
    (Table.get? (b.openSpace other) device).map PortSpace.points =
      if other = device then some (((Table.get? b device).map PortSpace.points).getD [])
      else (Table.get? b device).map PortSpace.points := by
  rw [get?_openSpace_eq]
  split
  · cases Table.get? b device <;> rfl
  · rfl

theorem points_act_allocate (b : PortBook) (other : DeviceId) (point : ConnectPoint)
    (device : DeviceId) :
    (Table.get? (b.act (.allocate other point)) device).map PortSpace.points =
      ((Table.get? b device).map PortSpace.points).map fun points =>
        if other = device ∧ point ∉ points then points ++ [point] else points := by
  rw [act_allocate]
  by_cases hsame : other = device
  · subst hsame
    cases hspace : Table.get? b other with
    | none => simp [hspace]
    | some space =>
      simp only [Table.get?_set_self, Option.map_some, true_and]
      by_cases hold : point ∈ space.points
      · rw [PortSpace.allocate_of_mem hold, if_neg (not_not_intro hold)]
      · rw [PortSpace.points_allocate_of_not_mem hold, if_pos hold]
  · simp only [hsame, false_and, if_false, Option.map_id']
    split
    · rfl
    · rw [Table.get?_set, if_neg hsame]

/-- The port spaces are what the operations say. -/
theorem points_after (ops : List PortOp) (device : DeviceId) :
    (Table.get? (after ops) device).map PortSpace.points
      = if PortOp.Opened device ops then some (PortOp.allocated device ops) else none := by
  induction ops using List.reverseRecOn with
  | nil => rfl
  | append_singleton ops op ih =>
    rw [after_concat]
    cases op with
    | clear => rw [if_neg PortOp.not_opened_concat_clear, act, Table.get?_empty, Option.map_none]
    | openSpace other =>
      rw [act, points_openSpace, ih, PortOp.allocated_concat_openSpace]
      simp only [PortOp.opened_concat (nofun : PortOp.openSpace other ≠ .clear)]
      by_cases hsame : other = device
      · subst hsame
        by_cases hopened : PortOp.Opened other ops
        · simp [hopened]
        · simp [hopened, PortOp.allocated_eq_nil hopened]
      · simp [hsame]
    | allocate other point =>
      rw [points_act_allocate, ih, PortOp.allocated_concat_allocate]
      simp only [PortOp.opened_concat (nofun : PortOp.allocate other point ≠ .clear), reduceCtorEq,
        or_false]
      by_cases hopened : PortOp.Opened device ops <;> simp [hopened]

theorem exists_space_of_opened (h : PortOp.Opened device ops) :
    ∃ space, Table.get? (after ops) device = some space
      ∧ space.points = PortOp.allocated device ops := by
  have hpoints := points_after ops device
  rw [if_pos h] at hpoints
  exact Option.map_eq_some_iff.1 hpoints

theorem get?_after_of_not_opened (h : ¬ PortOp.Opened device ops) :
    Table.get? (after ops) device = none := by
  have hpoints := points_after ops device
  rw [if_neg h] at hpoints
  exact Option.map_eq_none_iff.1 hpoints

/-- What an allocation gives out: the port of the place that the connect point has or now gets. -/
theorem answer_allocateInPlace_iff :
    (allocateInPlace device point).run' (after ops) = some port ↔
      PortOp.Opened device ops
        ∧ port = PortSpace.portAt ((PortOp.allocated device ops).idxOf point) := by
  rw [answer_allocateInPlace]
  by_cases hopened : PortOp.Opened device ops
  · obtain ⟨space, hspace, hpoints⟩ := exists_space_of_opened hopened
    rw [allocate_of_space hspace, ← hpoints]
    change some (space.portAfter point) = some port ↔ _
    rw [Option.some_inj, eq_comm]
    exact (and_iff_right hopened).symm
  · rw [allocate_of_none (get?_after_of_not_opened hopened)]
    exact ⟨nofun, fun h => absurd h.1 hopened⟩

theorem givenOut_concat {op : PortOp} :
    GivenOut (ops ++ [op]) device point port ↔
      op ≠ .clear ∧ GivenOut ops device point port ∨ op = .allocate device point
        ∧ (allocateInPlace device point).run' (after ops) = some port := by
  constructor
  · rintro ⟨before, rest, hops, hclear, hrun⟩
    obtain ⟨rest', rfl⟩ | ⟨rfl, rfl, -⟩ := concat_eq_split hops
    · obtain rfl : rest' ++ [op] = rest := by simpa using hops
      refine .inl ⟨?_, before, rest', rfl, fun h => hclear (List.mem_append_left _ h), hrun⟩
      rintro rfl
      exact hclear (List.mem_append_right _ List.mem_cons_self)
    · exact .inr ⟨rfl, hrun⟩
  · rintro (⟨hop, before, rest, rfl, hclear, hrun⟩ | ⟨rfl, hrun⟩)
    · refine ⟨before, rest ++ [op], by simp, ?_, hrun⟩
      simp [hclear, hop.symm]
    · exact ⟨ops, [], rfl, List.not_mem_nil, hrun⟩

/-- Ports are given out by place: the connect points that have one are those allocated since the
device was opened, and the port of each tells which of them it is. -/
theorem givenOut_iff :
    GivenOut ops device point port ↔
      point ∈ PortOp.allocated device ops
        ∧ port = PortSpace.portAt ((PortOp.allocated device ops).idxOf point) := by
  induction ops using List.reverseRecOn with
  | nil =>
    constructor
    · rintro ⟨before, rest, hops, -⟩
      simp at hops
    · rintro ⟨hmem, -⟩
      cases hmem
  | append_singleton ops op ih =>
    rw [givenOut_concat, ih]
    cases op with
    | clear => simp [PortOp.allocated_concat_clear]
    | openSpace other => simp [PortOp.allocated_concat_openSpace]
    | allocate other new =>
      simp only [ne_eq, reduceCtorEq, not_false_eq_true, true_and]
      rw [answer_allocateInPlace_iff, PortOp.allocated_concat_allocate]
      by_cases hsame : other = device
      · subst hsame
        simp only [true_and, PortOp.allocate.injEq]
        by_cases hnew : PortOp.Opened other ops ∧ new ∉ PortOp.allocated other ops
        · -- the new connect point goes to the end, so that the places of the others stay
          rw [if_pos hnew, List.mem_append, List.mem_singleton]
          by_cases hold : point ∈ PortOp.allocated other ops
          · have hne : new ≠ point := fun h => hnew.2 (h ▸ hold)
            simp [hold, hne, List.idxOf_append_of_mem hold]
          · rw [List.idxOf_append_of_notMem hold, List.idxOf_eq_length hold]
            by_cases hpoint : new = point
            · subst hpoint
              simp [hold, hnew.1]
            · simp [hold, hpoint, Ne.symm hpoint]
        · rw [if_neg hnew, or_iff_left_of_imp]
          rintro ⟨rfl, hopened, hport⟩
          exact ⟨by_contra fun h => hnew ⟨hopened, h⟩, hport⟩
      · simp [hsame]

theorem allocate_of_givenOut (h : GivenOut ops device point port) :
    (after ops).allocate device point = .ok (after ops, port) := by
  obtain ⟨hmem, rfl⟩ := givenOut_iff.1 h
  have hopened : PortOp.Opened device ops := by
    by_contra hclosed
    rw [PortOp.allocated_eq_nil hclosed] at hmem
    cases hmem
  obtain ⟨space, hspace, hpoints⟩ := exists_space_of_opened hopened
  rw [← hpoints] at hmem ⊢
  have hheld : Table.set (after ops) device space = after ops :=
    Roster.put_eq_self (Roster.mem_items_iff.1 (Table.get?_eq_some_iff.1 hspace))
  rw [allocate_of_space hspace, PortSpace.allocate_of_mem hmem, hheld]
  rfl

/-- The ports of a device are numbered without gaps, one for each connect point in the order in which
they were allocated first, and each leads back to its connect point. -/
theorem ports_gapless (ops : List PortOp) (device : DeviceId)
    (hfew : ops.countP PortOp.isAllocation < 2 ^ 64 - 1) :
    let points := PortOp.allocated device ops
    let b := after ops
    points.Nodup
    ∧ (∀ point port, GivenOut ops device point port
        ↔ 1 ≤ port.toNat ∧ points[port.toNat - 1]? = some point)
    ∧ (∀ port, (∃ point, GivenOut ops device point port)
        ↔ 1 ≤ port.toNat ∧ port.toNat ≤ points.length)
    ∧ (∀ port, b.resolve? device port
        = if 1 ≤ port.toNat then points[port.toNat - 1]? else none)
    ∧ (∀ point port, GivenOut ops device point port → b.allocate device point = .ok (b, port))
    ∧ (PortOp.Opened device ops → b.openSpace device = b)
    ∧ (¬ PortOp.Opened device ops → ∀ point,
        (allocateInPlace device point).run b = .error (.notInitialized device) b) := by
  intro points b
  have hlength : points.length < 2 ^ 64 := by
    have hle : points.length ≤ ops.countP PortOp.isAllocation :=
      PortOp.length_allocated_le device ops
    omega
  have hnodup : points.Nodup := PortOp.nodup_allocated device ops
  have hgiven : ∀ point port, GivenOut ops device point port
      ↔ 1 ≤ port.toNat ∧ points[port.toNat - 1]? = some point := fun point port =>
    givenOut_iff.trans (PortSpace.mem_and_eq_portAt_iff hnodup hlength)
  refine ⟨hnodup, hgiven, fun port => ?_, fun port => ?_, fun _ _ => allocate_of_givenOut, ?_, ?_⟩
  · simp only [hgiven, exists_and_left, ← Option.isSome_iff_exists, isSome_getElem?]
    omega
  · rw [resolve?]
    by_cases hopened : PortOp.Opened device ops
    · obtain ⟨space, hspace, hpoints⟩ := exists_space_of_opened hopened
      have hpoints : space.points = points := hpoints
      rw [← hpoints] at hlength ⊢
      rw [hspace]
      exact PortSpace.point?_eq hlength port
    · have hnil : points = [] := PortOp.allocated_eq_nil hopened
      rw [get?_after_of_not_opened hopened, hnil]
      simp
  · intro hopened
    obtain ⟨space, hspace, -⟩ := exists_space_of_opened hopened
    rw [openSpace, Table.contains_eq_isSome_get?, hspace]
    rfl
  · intro hclosed point
    rw [run_allocateInPlace, allocate_of_none (get?_after_of_not_opened hclosed), inPlace]

/-- A device is opened twice and a connect point allocated twice, with another device in between. -/
theorem ports_gapless_openedTwice :
    let here : DeviceId := ⟨"imvs:1"⟩
    let there : DeviceId := ⟨"imvs:2"⟩
    let first : ConnectPoint := ⟨⟨"of:1"⟩, 7⟩
    let second : ConnectPoint := ⟨⟨"of:1"⟩, 8⟩
    let ops : List PortOp :=
      [.openSpace here, .allocate there first, .allocate here first, .openSpace here,
        .allocate here second, .allocate here first]
    ops.countP PortOp.isAllocation < 2 ^ 64 - 1 ∧ GivenOut ops here second 2
      ∧ (after ops).resolve? here 2 = some second ∧ (after ops).resolve? here 3 = none := by
  intro here there first second ops
  have hfew : ops.countP PortOp.isAllocation < 2 ^ 64 - 1 := by decide
  obtain ⟨-, hgiven, -, hresolve, -⟩ := ports_gapless ops here hfew
  exact ⟨hfew, (hgiven second 2).2 (by decide), (hresolve 2).trans (by decide),
    (hresolve 3).trans (by decide)⟩

end PortBook

end Multidomain
