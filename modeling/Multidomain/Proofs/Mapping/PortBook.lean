import Mathlib.Algebra.Group.Nat.Defs
import Mathlib.Data.List.Basic
import Mathlib.Data.List.Find
import Multidomain.Mapping.PortBook
import Multidomain.Proofs.Mapping.LinkBook

/-!
# Ports that stay where they are

A connect point keeps the port that it was given, whatever is allocated later, and the port leads
back to the connect point as long as the 64 bits of a port number suffice. `Holds` says that a port
of a virtual device stands for a connect point; allocation on any device keeps it. `Grows` is all that
openings and allocations can make of a book, however many follow one another.
-/

namespace Multidomain

namespace PortSpace

variable {s : PortSpace} {point other : ConnectPoint}

theorem mem_allocate_self (s : PortSpace) (point : ConnectPoint) :
    point ∈ (s.allocate point).points := by
  by_cases h : point ∈ s.points
  · rwa [allocate_of_mem h]
  · rw [points_allocate_of_not_mem h]
    simp

theorem mem_allocate_of_mem (h : point ∈ s.points) : point ∈ (s.allocate other).points := by
  by_cases hother : other ∈ s.points
  · rwa [allocate_of_mem hother]
  · rw [points_allocate_of_not_mem hother]
    exact List.mem_append_left _ h

theorem mem_of_mem_allocate (h : point ∈ (s.allocate other).points) :
    point ∈ s.points ∨ other ∉ s.points ∧ point = other := by
  by_cases hother : other ∈ s.points
  · rw [allocate_of_mem hother] at h
    exact .inl h
  · rw [points_allocate_of_not_mem hother, List.mem_append, List.mem_singleton] at h
    exact h.imp_right fun heq => ⟨hother, heq⟩

theorem length_allocate_le (s : PortSpace) (point : ConnectPoint) :
    (s.allocate point).points.length ≤ s.points.length + 1 := by
  by_cases h : point ∈ s.points
  · rw [allocate_of_mem h]
    exact Nat.le_succ _
  · have hlength := congrArg List.length (points_allocate_of_not_mem h)
    rw [List.length_append, List.length_singleton] at hlength
    omega

theorem portAfter_allocate_of_mem (h : point ∈ s.points) :
    (s.allocate other).portAfter point = s.portAfter point := by
  by_cases hother : other ∈ s.points
  · rw [allocate_of_mem hother]
  · rw [portAfter, points_allocate_of_not_mem hother, List.idxOf_append_of_mem h]
    rfl

theorem portAfter_allocate_self (s : PortSpace) (point : ConnectPoint) :
    (s.allocate point).portAfter point = s.portAfter point := by
  by_cases h : point ∈ s.points
  · rw [allocate_of_mem h]
  · rw [portAfter, portAfter, points_allocate_of_not_mem h, List.idxOf_append_of_notMem h,
      List.idxOf_eq_length h]
    simp

/-- While the 64 bits of a port number suffice, no two connect points hold one port. -/
theorem eq_of_portAfter_eq (h : point ∈ s.points) (hother : other ∈ s.points)
    (hlength : s.points.length < 2 ^ 64) (hport : s.portAfter other = s.portAfter point) :
    other = point := by
  have hindex : s.points.idxOf point < s.points.length := List.idxOf_lt_length_iff.2 h
  have hindex' : s.points.idxOf other < s.points.length := List.idxOf_lt_length_iff.2 hother
  have hnat := congrArg UInt64.toNat hport
  rw [portAfter, portAfter, portAt, portAt, UInt64.toNat_ofNat', UInt64.toNat_ofNat',
    Nat.mod_eq_of_lt (by omega), Nat.mod_eq_of_lt (by omega)] at hnat
  exact (List.idxOf_inj hother).1 (Nat.succ.inj hnat)

/-- A port that was given to a connect point leads to one that it was given to. -/
theorem exists_point?_portAfter (h : point ∈ s.points) :
    ∃ other ∈ s.points, s.point? (s.portAfter point) = some other
      ∧ s.portAfter other = s.portAfter point := by
  have hsome : (s.point? (s.portAfter point)).isSome := by
    rw [point?, List.find?_isSome]
    exact ⟨point, List.mem_reverse.2 h, by simp⟩
  obtain ⟨other, hother⟩ := Option.isSome_iff_exists.1 hsome
  have hport := List.find?_some hother
  exact ⟨other, List.mem_reverse.1 (List.mem_of_find?_eq_some hother), hother, by simpa using hport⟩

/-- The port of a connect point leads back to it. -/
theorem point?_portAfter (h : point ∈ s.points) (hlength : s.points.length < 2 ^ 64) :
    s.point? (s.portAfter point) = some point := by
  obtain ⟨other, hother, hpoint, hport⟩ := exists_point?_portAfter h
  rw [hpoint, eq_of_portAfter_eq h hother hlength hport]

/-- A port leads to the connect point that it was given to last. -/
theorem point?_allocate (s : PortSpace) (point : ConnectPoint) (port : PortNumber) :
    (s.allocate point).point? port
      = if point ∉ s.points ∧ s.portAfter point = port then some point else s.point? port := by
  by_cases h : point ∈ s.points
  · simp [allocate_of_mem h, h]
  · have hreverse : (s.allocate point).points.reverse = point :: s.points.reverse := by
      rw [points_allocate_of_not_mem h, List.reverse_append]
      rfl
    have hold : ∀ other ∈ s.points.reverse,
        decide ((s.allocate point).portAfter other = port) = decide (s.portAfter other = port) := by
      intro other hother
      rw [portAfter_allocate_of_mem (List.mem_reverse.1 hother)]
    rw [point?, hreverse, List.find?_cons, portAfter_allocate_self, List.find?_congr hold]
    by_cases hport : s.portAfter point = port <;> simp [h, hport, point?]

end PortSpace

namespace PortBook

variable {b : PortBook} {virtual real : ConnectPoint}

/-- The virtual connect point is the port that its device gave to the real one. -/
def Holds (b : PortBook) (virtual real : ConnectPoint) : Prop :=
  ∃ space, Table.get? b virtual.device = some space ∧ real ∈ space.points ∧
    virtual.port = space.portAfter real

theorem Holds.openSpace (h : Holds b virtual real) (device : DeviceId) :
    Holds (b.openSpace device) virtual real := by
  obtain ⟨space, hspace, hmem, hport⟩ := h
  refine ⟨space, ?_, hmem, hport⟩
  unfold PortBook.openSpace
  split
  · exact hspace
  · next hclosed =>
    have hne : device ≠ virtual.device := by
      rintro rfl
      exact hclosed (by rw [Table.contains_eq_isSome_get?, hspace, Option.isSome_some])
    rw [Table.get?_set, if_neg hne, hspace]

theorem Holds.allocate {device : DeviceId} {space : PortSpace} (h : Holds b virtual real)
    (hspace : Table.get? b device = some space) (point : ConnectPoint) :
    Holds (Table.set b device (space.allocate point)) virtual real := by
  obtain ⟨own, hown, hmem, hport⟩ := h
  by_cases hsame : device = virtual.device
  · subst hsame
    obtain rfl := Option.some.inj (hown.symm.trans hspace)
    exact ⟨_, Table.get?_set_self _ _ _, PortSpace.mem_allocate_of_mem hmem,
      hport.trans (PortSpace.portAfter_allocate_of_mem hmem).symm⟩
  · exact ⟨own, by rw [Table.get?_set, if_neg hsame, hown], hmem, hport⟩

theorem holds_allocate_self (b : PortBook) (device : DeviceId) (space : PortSpace)
    (point : ConnectPoint) :
    Holds (Table.set b device (space.allocate point)) ⟨device, space.portAfter point⟩ point :=
  ⟨_, Table.get?_set_self _ _ _, PortSpace.mem_allocate_self space point,
    (PortSpace.portAfter_allocate_self space point).symm⟩

theorem get?_openSpace {device other : DeviceId} {space : PortSpace}
    (h : Table.get? (b.openSpace device) other = some space) :
    Table.get? b other = some space ∨ space = .empty := by
  unfold openSpace at h
  split at h
  · exact Or.inl h
  · rw [Table.get?_set] at h
    split at h
    · exact Or.inr (Option.some.inj h).symm
    · exact Or.inl h

/-- A new port space has no ports. -/
theorem holds_openSpace_iff {device : DeviceId} :
    Holds (b.openSpace device) virtual real ↔ Holds b virtual real := by
  refine ⟨?_, fun h => h.openSpace device⟩
  rintro ⟨space, hspace, hmem, hport⟩
  obtain hspace | rfl := get?_openSpace hspace
  · exact ⟨space, hspace, hmem, hport⟩
  · cases hmem

theorem resolve?_openSpace (b : PortBook) (device : DeviceId) (virtual : ConnectPoint) :
    (b.openSpace device).resolve? virtual.device virtual.port
      = b.resolve? virtual.device virtual.port := by
  unfold PortBook.openSpace
  split
  · rfl
  · next hclosed =>
    unfold PortBook.resolve?
    rw [Table.get?_set]
    split
    · next hsame =>
      rw [Table.contains_eq_isSome_get?, Bool.not_eq_true, Option.isSome_eq_false_iff,
        Option.isNone_iff_eq_none, hsame] at hclosed
      rw [hclosed]
      rfl
    · rfl

/-- Allocation gives out a port that did not stand for the connect point and now leads to it, and
leaves every other port as it is. -/
theorem allocate_cases {device : DeviceId} {space : PortSpace}
    (hspace : Table.get? b device = some space) (point virtual : ConnectPoint) :
    let b' : PortBook := Table.set b device (space.allocate point)
    (¬ Holds b virtual point ∧ Holds b' virtual point
      ∧ b'.resolve? virtual.device virtual.port = some point)
    ∨ ((∀ real, Holds b' virtual real → Holds b virtual real)
      ∧ b'.resolve? virtual.device virtual.port = b.resolve? virtual.device virtual.port) := by
  intro b'
  have hget : Table.get? b' virtual.device
      = if device = virtual.device then some (space.allocate point)
        else Table.get? b virtual.device := Table.get?_set ..
  by_cases hsame : device = virtual.device
  · subst hsame
    rw [if_pos rfl] at hget
    have hresolve : b'.resolve? virtual.device virtual.port
        = (space.allocate point).point? virtual.port := by
      rw [PortBook.resolve?, hget, Option.bind_some]
    rw [hresolve, PortSpace.point?_allocate, PortBook.resolve?, hspace, Option.bind_some]
    -- the port is new only where it is the very port that the connect point is given now
    by_cases hnew : point ∉ space.points ∧ space.portAfter point = virtual.port
    · obtain ⟨hpoint, hport⟩ := hnew
      refine .inl ⟨?_, ?_, if_pos ⟨hpoint, hport⟩⟩
      · rintro ⟨own, hown, hmem, -⟩
        obtain rfl := Option.some.inj (hown.symm.trans hspace)
        exact hpoint hmem
      · refine ⟨_, hget, PortSpace.mem_allocate_self space point, ?_⟩
        rw [PortSpace.portAfter_allocate_self, hport]
    · refine .inr ⟨?_, if_neg hnew⟩
      rintro real ⟨own, hown, hmem, hport⟩
      obtain rfl := Option.some.inj (hown.symm.trans hget)
      obtain hold | ⟨hpoint, rfl⟩ := PortSpace.mem_of_mem_allocate hmem
      · rw [PortSpace.portAfter_allocate_of_mem hold] at hport
        exact ⟨space, hspace, hold, hport⟩
      · rw [PortSpace.portAfter_allocate_self] at hport
        exact absurd ⟨hpoint, hport.symm⟩ hnew
  · rw [if_neg hsame] at hget
    refine .inr ⟨?_, by rw [PortBook.resolve?, PortBook.resolve?, hget]⟩
    rintro real ⟨own, hown, hmem, hport⟩
    exact ⟨own, hget ▸ hown, hmem, hport⟩

/-- From one book to another every port keeps what it stood for. A port that comes to stand for
something is given to one of the connect points and leads to it from then on, and every other port
leads where it led before. -/
structure Grows (points : List ConnectPoint) (b b' : PortBook) : Prop where
  holds : ∀ {virtual real}, Holds b virtual real → Holds b' virtual real
  given : ∀ virtual : ConnectPoint,
    (∃ real ∈ points, ¬ Holds b virtual real ∧ Holds b' virtual real
      ∧ b'.resolve? virtual.device virtual.port = some real)
    ∨ ((∀ real, Holds b' virtual real → Holds b virtual real)
      ∧ b'.resolve? virtual.device virtual.port = b.resolve? virtual.device virtual.port)

namespace Grows

variable {points : List ConnectPoint} {b' : PortBook}

theorem refl (points : List ConnectPoint) (b : PortBook) : Grows points b b where
  holds h := h
  given _ := .inr ⟨fun _ h => h, rfl⟩

theorem openSpace (points : List ConnectPoint) (b : PortBook) (device : DeviceId) :
    Grows points b (b.openSpace device) where
  holds h := h.openSpace device
  given virtual := .inr ⟨fun _ h => holds_openSpace_iff.1 h, resolve?_openSpace b device virtual⟩

theorem allocate {device : DeviceId} {space : PortSpace} {point : ConnectPoint}
    (h : Grows points b b') (hspace : Table.get? b' device = some space) (hpoint : point ∈ points) :
    Grows points b (Table.set b' device (space.allocate point)) where
  holds hholds := (h.holds hholds).allocate hspace point
  given virtual := by
    obtain ⟨hnew, hholds, hresolve⟩ | ⟨hold, hresolve⟩ := allocate_cases hspace point virtual
    · exact .inl ⟨point, hpoint, fun hbefore => hnew (h.holds hbefore), hholds, hresolve⟩
    · obtain ⟨real, hreal, hnew, hholds, hbefore⟩ | ⟨hkept, hbefore⟩ := h.given virtual
      · exact .inl ⟨real, hreal, hnew, hholds.allocate hspace point, hresolve.trans hbefore⟩
      · exact .inr ⟨fun real hreal => hkept real (hold real hreal), hresolve.trans hbefore⟩

end Grows

theorem length_set_allocate_le {device other : DeviceId} {own space : PortSpace}
    {point : ConnectPoint} {n : Nat} (hown : Table.get? b device = some own)
    (hn : ∀ device space, Table.get? b device = some space → space.points.length ≤ n)
    (h : Table.get? (Table.set b device (own.allocate point)) other = some space) :
    space.points.length ≤ n + 1 := by
  rw [Table.get?_set] at h
  split at h
  · obtain rfl := Option.some.inj h
    exact Nat.le_trans (PortSpace.length_allocate_le own point) (Nat.succ_le_succ (hn _ _ hown))
  · exact Nat.le_succ_of_le (hn _ _ h)

/-- A port that stands for a connect point leads to one that it stands for. -/
theorem Holds.exists_resolve? (h : Holds b virtual real) :
    ∃ other, b.resolve? virtual.device virtual.port = some other ∧ Holds b virtual other := by
  obtain ⟨space, hspace, hmem, hport⟩ := h
  obtain ⟨other, hother, hpoint, hsame⟩ := PortSpace.exists_point?_portAfter hmem
  refine ⟨other, ?_, space, hspace, hother, hport.trans hsame.symm⟩
  rw [PortBook.resolve?, hspace, Option.bind_some, hport, hpoint]

theorem Holds.resolve? (h : Holds b virtual real)
    (hlength : ∀ device space, Table.get? b device = some space → space.points.length < 2 ^ 64) :
    b.resolve? virtual.device virtual.port = some real := by
  obtain ⟨space, hspace, hmem, hport⟩ := h
  rw [PortBook.resolve?, hspace, Option.bind_some, hport]
  exact PortSpace.point?_portAfter hmem (hlength _ _ hspace)

end PortBook

end Multidomain
