import Mathlib.Data.List.Nodup
import Multidomain.Json.Record
import Multidomain.Proofs.Roster

/-!
# Values in canonical form

A value that has come out of a text is in canonical form, and whatever is read from it is read from
that form. Bringing a value into canonical form a second time changes nothing, and as long as no name
of an object is repeated, each of its fields is found under its name as before. So what was written
with all names different can be read as if it had never been rearranged: `Holds` is that fact about a
record.
-/

namespace Multidomain

namespace Json

/-! ### Fields in order -/

/-- The last of several fields of one name, fields in order of their names. -/
def arranged (fields : List (String × Json)) : List (String × Json) :=
  (Table.ofList fields).items.mergeSort fun a b => a.1 ≤ b.1

theorem canonical_object (fields : List (String × Json)) :
    (object fields).canonical = object (arranged (canonicalFields fields)) := rfl

theorem nodup_arranged (fields : List (String × Json)) :
    ((arranged fields).map Prod.fst).Nodup :=
  ((List.mergeSort_perm ..).map Prod.fst).nodup_iff.2 (Table.ofList fields).nodup_keys

theorem mem_of_mem_arranged {fields : List (String × Json)} {f : String × Json}
    (h : f ∈ arranged fields) : f ∈ fields :=
  (Roster.mem_putAll (List.mem_mergeSort.1 h)).resolve_left fun hempty => nomatch hempty

theorem items_ofList {fields : List (String × Json)} (h : (fields.map Prod.fst).Nodup) :
    (Table.ofList fields).items = fields :=
  Roster.items_putAll_of_nodup (r := Roster.empty) h

theorem arranged_arranged (fields : List (String × Json)) :
    arranged (arranged fields) = arranged fields := by
  have hsorted : (arranged fields).Pairwise fun a b => decide (a.1 ≤ b.1) = true := by
    apply List.pairwise_mergeSort
    · intro a b c hab hbc
      rw [decide_eq_true_eq] at *
      exact String.le_trans hab hbc
    · intro a b
      simpa using String.le_total a.1 b.1
  conv_lhs => rw [arranged, items_ofList (nodup_arranged fields)]
  exact List.mergeSort_of_pairwise hsorted

/-- With names all different, a field is found where it stands. -/
theorem lookup_eq_some_iff {α : Type} {fields : List (String × α)}
    (h : (fields.map Prod.fst).Nodup) {name : String} {value : α} :
    fields.lookup name = some value ↔ (name, value) ∈ fields := by
  induction fields with
  | nil => simp
  | cons f rest ih =>
    obtain ⟨other, first⟩ := f
    rw [List.map_cons, List.nodup_cons] at h
    obtain ⟨hnew, hrest⟩ := h
    rw [List.lookup_cons]
    by_cases hname : name = other
    · subst hname
      have hmem : (name, value) ∉ rest := fun hmem => hnew (List.mem_map.2 ⟨_, hmem, rfl⟩)
      simp [hmem, eq_comm]
    · rw [beq_false_of_ne hname]
      simp [hname, ih hrest]

theorem lookup_arranged {fields : List (String × Json)} (h : (fields.map Prod.fst).Nodup)
    (name : String) : (arranged fields).lookup name = fields.lookup name := by
  ext value
  have hmem : (name, value) ∈ arranged fields ↔ (name, value) ∈ fields := by
    rw [arranged, List.mem_mergeSort, items_ofList h]
  exact (lookup_eq_some_iff (nodup_arranged fields)).trans
    (hmem.trans (lookup_eq_some_iff h).symm)

/-! ### Canonical values -/

theorem canonicalItems_eq (items : List Json) : canonicalItems items = items.map canonical := by
  induction items with
  | nil => rfl
  | cons item rest ih => rw [canonicalItems, ih, List.map_cons]

theorem canonicalFields_eq (fields : List (String × Json)) :
    canonicalFields fields = fields.map fun f => (f.1, f.2.canonical) := by
  induction fields with
  | nil => rfl
  | cons f rest ih => rw [canonicalFields, ih, List.map_cons]

theorem legibleItems_iff {items : List Json} :
    legibleItems items = true ↔ ∀ item ∈ items, item.legible = true := by
  induction items with
  | nil => simp [legibleItems]
  | cons item rest ih => simp [legibleItems, ih]

theorem legibleFields_iff {fields : List (String × Json)} :
    legibleFields fields = true ↔ ∀ f ∈ fields, f.2.legible = true := by
  induction fields with
  | nil => simp [legibleFields]
  | cons f rest ih => simp [legibleFields, ih]

mutual

/-- Canonical form is reached at once. -/
theorem canonical_canonical : ∀ value : Json, value.canonical.canonical = value.canonical
  | null | bool _ | number _ | string _ | illegible => rfl
  | array items => by
    have hitems := canonical_of_mem_items items
    rw [canonical, canonical, canonicalItems_eq (canonicalItems items)]
    congr 1
    exact (List.map_congr_left hitems).trans (List.map_id _)
  | object fields => by
    have hfields := canonical_of_mem_fields fields
    have hfixed : canonicalFields (arranged (canonicalFields fields))
        = arranged (canonicalFields fields) := by
      rw [canonicalFields_eq]
      refine (List.map_congr_left fun f hf => ?_).trans (List.map_id _)
      rw [hfields f (mem_of_mem_arranged hf)]
      rfl
    rw [canonical_object, canonical_object, hfixed, arranged_arranged]

theorem canonical_of_mem_items : ∀ items : List Json,
    ∀ item ∈ canonicalItems items, item.canonical = item
  | [], item, h => nomatch h
  | first :: rest, item, h => by
    rw [canonicalItems] at h
    obtain rfl | h := List.mem_cons.1 h
    · exact canonical_canonical first
    · exact canonical_of_mem_items rest item h

theorem canonical_of_mem_fields : ∀ fields : List (String × Json),
    ∀ f ∈ canonicalFields fields, f.2.canonical = f.2
  | [], f, h => nomatch h
  | (name, value) :: rest, f, h => by
    rw [canonicalFields] at h
    obtain rfl | h := List.mem_cons.1 h
    · exact canonical_canonical value
    · exact canonical_of_mem_fields rest f h

end

mutual

theorem legible_canonical : ∀ {value : Json}, value.legible = true → value.canonical.legible = true
  | null, _ | bool _, _ | number _, _ | string _, _ => rfl
  | array items, h => by
    rw [canonical, legible, legibleItems_iff]
    exact legible_of_mem_items items h
  | object fields, h => by
    rw [canonical_object, legible, legibleFields_iff]
    exact fun f hf => legible_of_mem_fields fields h f (mem_of_mem_arranged hf)

theorem legible_of_mem_items : ∀ items : List Json, legibleItems items = true →
    ∀ item ∈ canonicalItems items, item.legible = true
  | [], _, item, h => nomatch h
  | first :: rest, hlegible, item, h => by
    rw [legibleItems, Bool.and_eq_true] at hlegible
    rw [canonicalItems] at h
    obtain rfl | h := List.mem_cons.1 h
    · exact legible_canonical hlegible.1
    · exact legible_of_mem_items rest hlegible.2 item h

theorem legible_of_mem_fields : ∀ fields : List (String × Json), legibleFields fields = true →
    ∀ f ∈ canonicalFields fields, f.2.legible = true
  | [], _, f, h => nomatch h
  | (name, value) :: rest, hlegible, f, h => by
    rw [legibleFields, Bool.and_eq_true] at hlegible
    rw [canonicalFields] at h
    obtain rfl | h := List.mem_cons.1 h
    · exact legible_canonical hlegible.1
    · exact legible_of_mem_fields rest hlegible.2 f h

end

/-- A value that is canonical and legible is taken as it is. -/
theorem any?_canonical {value : Json} (h : value.legible = true) :
    value.canonical.any? = some value.canonical := by
  rw [any?, if_pos (legible_canonical h), canonical_canonical]

/-! ### Records -/

/-- The value is an object with names all different, which holds the fields that are there, each in
canonical form. -/
def Holds (value : Json) (fields : List (String × Option Json)) : Prop :=
  ∃ written, value = object written ∧ (written.map Prod.fst).Nodup
    ∧ ∀ name, written.lookup name = ((fields.lookup name).join).map canonical

theorem nodup_ofFields {fields : List (String × Option Json)} (h : (fields.map Prod.fst).Nodup) :
    ((fields.filterMap fun f => f.2.map fun value => (f.1, value)).map Prod.fst).Nodup := by
  refine h.sublist ?_
  induction fields with
  | nil => exact .slnil
  | cons f rest ih =>
    obtain ⟨name, value?⟩ := f
    have hrest := ih (List.nodup_cons.1 h).2
    cases value? with
    | none => exact hrest.cons _
    | some value => exact hrest.cons_cons _

theorem lookup_ofFields {fields : List (String × Option Json)} (h : (fields.map Prod.fst).Nodup)
    (name : String) :
    (fields.filterMap fun f => f.2.map fun value => (f.1, value)).lookup name
      = (fields.lookup name).join := by
  ext value
  rw [lookup_eq_some_iff (nodup_ofFields h), Option.join_eq_some_iff, lookup_eq_some_iff h,
    List.mem_filterMap]
  constructor
  · rintro ⟨⟨other, value?⟩, hmem, hvalue⟩
    obtain ⟨_, rfl, hpair⟩ := Option.map_eq_some_iff.1 hvalue
    cases hpair
    exact hmem
  · exact fun hmem => ⟨_, hmem, rfl⟩

theorem holds_canonical {fields : List (String × Option Json)} (h : (fields.map Prod.fst).Nodup) :
    (ofFields fields).canonical.Holds fields := by
  refine ⟨_, canonical_object _, nodup_arranged _, fun name => ?_⟩
  have hnames : ∀ written : List (String × Json),
      (written.map fun f => (f.1, f.2.canonical)).map Prod.fst = written.map Prod.fst := by
    intro written
    rw [List.map_map]
    rfl
  rw [canonicalFields_eq, lookup_arranged (by rw [hnames]; exact nodup_ofFields h),
    ← lookup_ofFields h]
  ext value
  rw [lookup_eq_some_iff (by rw [hnames]; exact nodup_ofFields h), Option.map_eq_some_iff,
    List.mem_map]
  constructor
  · rintro ⟨⟨other, old⟩, hmem, hpair⟩
    cases hpair
    exact ⟨old, (lookup_eq_some_iff (nodup_ofFields h)).2 hmem, rfl⟩
  · rintro ⟨old, hold, rfl⟩
    exact ⟨(name, old), (lookup_eq_some_iff (nodup_ofFields h)).1 hold, rfl⟩

theorem record?_of_nodup {written : List (String × Json)} (h : (written.map Prod.fst).Nodup)
    (names : List String) : (object written).record? names = some written := by
  have hsingle : ∀ name, (written.filter fun f => f.1 = name).length ≤ 1 := by
    intro name
    have hcount := List.nodup_iff_count_le_one.1 h name
    rw [List.count_eq_length_filter, List.filter_map, List.length_map] at hcount
    exact hcount
  rw [record?, if_pos]
  rw [List.all_eq_true]
  exact fun name _ => decide_eq_true (hsingle name)

end Json

end Multidomain
