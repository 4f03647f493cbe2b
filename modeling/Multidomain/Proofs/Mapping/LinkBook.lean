import Multidomain.Mapping.LinkBook

/-!
# The flags of a link book

A virtual link is up or not by the flags that the real links have for its pair of devices. The flag
of one real link for one pair is the view through which the rest of the theory reads the book:
`flag?_record` and `flag?_disconnect` say what recording and disconnecting do to it, and
`isUp_iff_flag?` says that it decides whether a link is up. No proof elsewhere opens the two tables
behind it.
-/

namespace Multidomain

/-- Two pairs are the same exactly when they are made of the same devices. -/
theorem DevicePair.of_eq_of_iff {a b c d : DeviceId} :
    DevicePair.of a b = DevicePair.of c d ↔ (a = c ∧ b = d) ∨ (a = d ∧ b = c) := by
  constructor
  · intro h
    unfold DevicePair.of at h
    split at h <;> split at h <;> simp only [DevicePair.mk.injEq] at h
    · exact Or.inl h
    · exact Or.inr h
    · exact Or.inr ⟨h.2, h.1⟩
    · exact Or.inl ⟨h.2, h.1⟩
  · rintro (⟨rfl, rfl⟩ | ⟨rfl, rfl⟩)
    · rfl
    · exact DevicePair.of_comm _ _

namespace Ends

variable {e f g : Ends}

theorem pair_of_heading {a b : DeviceId} (h : e.heading = ⟨a, b⟩) : e.pair = .of a b := by
  obtain ⟨rfl, rfl⟩ := Heading.mk.inj h
  rfl

theorem pair_of_orientation (h : e = f ∨ e = f.inverted) : e.pair = f.pair := by
  obtain rfl | rfl := h
  · rfl
  · exact pair_inverted f

theorem orientation_symm (h : e = f ∨ e = f.inverted) : f = e ∨ f = e.inverted := by
  obtain rfl | rfl := h
  · exact Or.inl rfl
  · exact Or.inr (inverted_inverted f).symm

theorem orientation_trans (h : e = f ∨ e = f.inverted) (h' : f = g ∨ f = g.inverted) :
    e = g ∨ e = g.inverted := by
  obtain rfl | rfl := h
  · exact h'
  · obtain rfl | rfl := h'
    · exact Or.inr rfl
    · exact Or.inl (inverted_inverted g)

end Ends

namespace Table

variable {κ ν : Type} [DecidableEq κ]

/-- A key is there exactly when it has a value. -/
theorem contains_eq_isSome_get? (t : Table κ ν) (k : κ) : t.contains k = (get? t k).isSome := by
  simp [Roster.contains, get?]

/-- The value of a key is the second component of an entry with that key. -/
theorem get?_eq_some_iff {t : Table κ ν} {k : κ} {v : ν} : get? t k = some v ↔ (k, v) ∈ t.items := by
  constructor
  · intro h
    obtain ⟨⟨l, w⟩, hfind, rfl⟩ := Option.map_eq_some_iff.1 h
    have hkey : l = k := Roster.key_of_find? hfind
    exact hkey ▸ Roster.mem_of_find? hfind
  · intro h
    have hfind := Roster.mem_items_iff.1 h
    exact congrArg (Option.map Prod.snd) hfind

end Table

namespace LinkBook

/-- The flag of the real links with a heading for a pair of virtual devices, where they were
recorded for it. -/
def flag? (b : LinkBook) (pair : DevicePair) (heading : Heading) : Option Bool :=
  (Table.get? b.backers pair).bind fun flags => Table.get? flags heading

theorem isUp_iff_flag? {b : LinkBook} {virtual : Ends} :
    b.isUp virtual = true ↔ ∃ heading, b.flag? virtual.pair heading = some true := by
  unfold isUp flag?
  cases Table.get? b.backers virtual.pair with
  | none => simp
  | some flags =>
    simp only [List.any_eq_true, Option.bind_some, Table.get?_eq_some_iff]
    constructor
    · rintro ⟨⟨heading, flag⟩, hmem, rfl⟩
      exact ⟨heading, hmem⟩
    · rintro ⟨heading, hmem⟩
      exact ⟨(heading, true), hmem, rfl⟩

theorem flag?_record (b : LinkBook) (real virtual : Ends) (pair : DevicePair) (heading : Heading) :
    (b.record real virtual).flag? pair heading =
      if virtual.pair = pair ∧ real.heading = heading then some true else b.flag? pair heading := by
  simp only [flag?, record, Table.get?_set]
  by_cases hpair : virtual.pair = pair
  · subst hpair
    simp only [if_true, Option.bind_some, Table.get?_set, true_and]
    cases Table.get? b.backers virtual.pair with
    | none => simp [Table.get?_empty]
    | some flags => simp
  · simp [hpair]

/-- Disconnecting clears one flag: that of the real link for the pair of the link it carries. -/
theorem flag?_disconnect (b : LinkBook) (real : Ends) (pair : DevicePair) (heading : Heading) :
    (b.disconnect real).flag? pair heading =
      if (b.carriedBy? real).map Ends.pair = some pair ∧ real.heading = heading then
        (b.flag? pair heading).map fun _ => false
      else b.flag? pair heading := by
  unfold disconnect
  cases hcarried : b.carriedBy? real with
  | none => simp
  | some virtual =>
    simp only [Option.map_some, Option.some.injEq]
    by_cases hhere : virtual.pair = pair ∧ real.heading = heading
    · obtain ⟨rfl, rfl⟩ := hhere
      cases hflags : Table.get? b.backers virtual.pair with
      | none => simp [flag?, hflags]
      | some flags =>
        cases hflag : Table.get? flags real.heading with
        | none => simp [flag?, hflags, hflag, Table.contains_eq_isSome_get?]
        | some old => simp [flag?, hflags, hflag, Table.contains_eq_isSome_get?]
    · rw [if_neg hhere]
      cases hflags : Table.get? b.backers virtual.pair with
      | none => rfl
      | some flags =>
        simp only []
        split
        · simp only [flag?, Table.get?_set]
          by_cases hpair : virtual.pair = pair
          · have hheading : real.heading ≠ heading := fun h => hhere ⟨hpair, h⟩
            subst hpair
            simp [hflags, Table.get?_set, hheading]
          · simp [hpair]
        · rfl

/-- Recording never changes the virtual link of a pair that has one. -/
theorem spans_record_of_some {b : LinkBook} {real virtual link : Ends}
    (h : Table.get? b.spans virtual.pair = some link) : (b.record real virtual).spans = b.spans := by
  simp [record, Table.contains_eq_isSome_get?, h]

theorem get?_spans_record {b : LinkBook} {real link span : Ends} {pair : DevicePair}
    (h : Table.get? (b.record real link).spans pair = some span) :
    Table.get? b.spans pair = some span ∨ span = link := by
  unfold record at h
  simp only at h
  split at h
  · exact .inl h
  · rw [Table.get?_set] at h
    split at h
    · exact .inr (Option.some.inj h).symm
    · exact .inl h

@[simp] theorem spans_disconnect (b : LinkBook) (real : Ends) :
    (b.disconnect real).spans = b.spans := by
  unfold disconnect
  repeat' split
  all_goals rfl

@[simp] theorem carried_disconnect (b : LinkBook) (real : Ends) :
    (b.disconnect real).carried = b.carried := by
  unfold disconnect
  repeat' split
  all_goals rfl

theorem get?_carried_record (b : LinkBook) (real virtual : Ends) (heading : Heading) :
    Table.get? (b.record real virtual).carried heading =
      if real.heading = heading then some virtual else Table.get? b.carried heading :=
  Table.get?_set ..

theorem contains_backers_record (b : LinkBook) (real virtual : Ends) (pair : DevicePair) :
    (b.record real virtual).backers.contains pair
      = (virtual.pair == pair || b.backers.contains pair) := by
  simp only [record, Table.contains_eq_isSome_get?, Table.get?_set]
  by_cases hpair : virtual.pair = pair <;> simp [hpair]

/-- Disconnecting concerns links that are recorded already. -/
theorem contains_backers_disconnect (b : LinkBook) (real : Ends) (pair : DevicePair) :
    (b.disconnect real).backers.contains pair = b.backers.contains pair := by
  unfold disconnect
  cases hcarried : b.carriedBy? real with
  | none => rfl
  | some virtual =>
    cases hflags : Table.get? b.backers virtual.pair with
    | none => simp only [hflags]
    | some flags =>
      simp only [hflags]
      split
      · rw [Table.contains_eq_isSome_get?, Table.contains_eq_isSome_get?, Table.get?_set]
        split
        · next hpair => rw [← hpair, hflags]; rfl
        · rfl
      · rfl

theorem seenFrom_eq_or (link : Ends) (device : DeviceId) :
    seenFrom link device = link ∨ seenFrom link device = link.inverted := by
  unfold seenFrom Ends.orientedFrom?
  split
  · exact .inl rfl
  · split
    · exact .inr rfl
    · exact .inl rfl

/-- A virtual link seen from a device at one of its ends starts there. -/
theorem seenFrom_of_pair {link : Ends} {src dst : DeviceId} (hpair : link.pair = .of src dst) :
    (seenFrom link src).src.device = src ∧ (seenFrom link src).dst.device = dst ∧
      (seenFrom link src = link ∨ seenFrom link src = link.inverted) := by
  rcases DevicePair.of_eq_of_iff.1 hpair with ⟨hsrc, hdst⟩ | ⟨hsrc, hdst⟩
  · simp [seenFrom, Ends.orientedFrom?, hsrc, hdst]
  · by_cases hsame : link.src.device = src
    · simp [seenFrom, Ends.orientedFrom?, hsame, hdst, ← hsrc]
    · rw [hsrc] at hsame
      simp [seenFrom, Ends.orientedFrom?, hsame, hdst, hsrc, Ends.inverted]

end LinkBook

end Multidomain
