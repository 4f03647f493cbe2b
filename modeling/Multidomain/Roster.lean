/-!
# Rosters

A roster is a finite list of values of which no two have the same key, where the key of a value is
read off the value by a fixed function. Every store of this library is a roster: devices by id,
links by their two ends, hosts by identity, flow rules by slot. Putting a value takes the place of
the value with its key, or goes to the end, so the order of a roster is the order in which its keys
were first put.

Three facts are enough to use it: what `find?` answers after `put`, after `erase`, and that
membership and `find?` agree.
-/

namespace Multidomain

/-- A list of values with pairwise different keys. -/
structure Roster {α κ : Type} (key : α → κ) where
  /-- The values, in the order in which their keys were first put. -/
  items : List α := []
  /-- No two values share a key. -/
  nodup_keys : (items.map key).Nodup := by simp

namespace Roster

variable {α κ : Type} {key : α → κ}

instance [DecidableEq α] : DecidableEq (Roster key) := fun a b =>
  if h : a.items = b.items then .isTrue (by cases a; cases b; cases h; rfl)
  else .isFalse fun e => h (e ▸ rfl)

def empty : Roster key := {}

instance : Inhabited (Roster key) := ⟨empty⟩

instance [Repr α] : Repr (Roster key) := ⟨fun r n => reprPrec r.items n⟩

private theorem eq_of_mem_of_key {items : List α} (hn : (items.map key).Nodup) {a b : α}
    (ha : a ∈ items) (hb : b ∈ items) (h : key a = key b) : a = b := by
  induction items with
  | nil => cases ha
  | cons c rest ih =>
    rw [List.map_cons, List.nodup_cons] at hn
    rcases List.mem_cons.1 ha with hac | har <;> rcases List.mem_cons.1 hb with hbc | hbr
    · rw [hac, hbc]
    · exact absurd (List.mem_map.2 ⟨b, hbr, by rw [← h, hac]⟩) hn.1
    · exact absurd (List.mem_map.2 ⟨a, har, by rw [h, hbc]⟩) hn.1
    · exact ih hn.2 har hbr

variable [DecidableEq κ]

/-- The value with key `k`, if there is one. -/
def find? (r : Roster key) (k : κ) : Option α := r.items.find? fun a => key a = k

/-- Whether some value has key `k`. -/
def contains (r : Roster key) (k : κ) : Bool := (r.find? k).isSome

/-- The items with `a` in the place of the one with its key. -/
private def replaced (items : List α) (key : α → κ) (a : α) : List α :=
  items.map fun b => if key b = key a then a else b

private theorem map_key_replaced (items : List α) (a : α) :
    (replaced items key a).map key = items.map key := by
  simp only [replaced, List.map_map]
  apply List.map_congr_left
  intro b _
  by_cases h : key b = key a <;> simp [h]

/-- Put `a` in the place of the value with its key, or at the end. -/
def put (r : Roster key) (a : α) : Roster key :=
  if h : key a ∈ r.items.map key then
    { items := replaced r.items key a
      nodup_keys := by rw [map_key_replaced]; exact r.nodup_keys }
  else
    { items := r.items ++ [a]
      nodup_keys := by
        rw [List.map_append, List.nodup_append]
        refine ⟨r.nodup_keys, by simp, ?_⟩
        intro x hx y hy hxy
        simp only [List.map_cons, List.map_nil, List.mem_singleton] at hy
        exact h (hy ▸ hxy ▸ hx) }

/-- Drop the value with key `k`, if there is one. -/
def erase (r : Roster key) (k : κ) : Roster key where
  items := r.items.filter fun a => key a ≠ k
  nodup_keys := r.nodup_keys.sublist (List.filter_sublist.map key)

/-- Put the values of a list one after the other. -/
def putAll (r : Roster key) (values : List α) : Roster key := values.foldl put r

def size (r : Roster key) : Nat := r.items.length

theorem key_of_find? {r : Roster key} {k : κ} {a : α} (h : r.find? k = some a) : key a = k := by
  simpa using List.find?_some h

theorem mem_of_find? {r : Roster key} {k : κ} {a : α} (h : r.find? k = some a) : a ∈ r.items :=
  List.mem_of_find?_eq_some h

/-- A value is a member exactly when it is found under its key. -/
theorem mem_items_iff {r : Roster key} {a : α} : a ∈ r.items ↔ r.find? (key a) = some a := by
  refine ⟨fun h => ?_, mem_of_find?⟩
  cases hf : r.find? (key a) with
  | none => simpa using (List.find?_eq_none.1 hf) a h
  | some b => rw [eq_of_mem_of_key r.nodup_keys (mem_of_find? hf) h (key_of_find? hf)]

theorem contains_iff {r : Roster key} {k : κ} : r.contains k = true ↔ k ∈ r.items.map key := by
  simp [contains, find?, List.find?_isSome]

@[simp] theorem find?_empty (k : κ) : (empty : Roster key).find? k = none := rfl

theorem find?_put_self (r : Roster key) (a : α) : (r.put a).find? (key a) = some a := by
  rw [← mem_items_iff]
  unfold put
  split
  · next h =>
    obtain ⟨b, hb, hk⟩ := List.mem_map.1 h
    exact List.mem_map.2 ⟨b, hb, by simp [hk]⟩
  · simp

theorem find?_put_of_ne (r : Roster key) {a : α} {k : κ} (h : key a ≠ k) :
    (r.put a).find? k = r.find? k := by
  unfold put
  split
  · simp only [find?, replaced]
    induction r.items with
    | nil => rfl
    | cons b rest ih =>
      rw [List.map_cons, List.find?_cons, List.find?_cons, ih]
      by_cases hb : key b = key a
      · simp [hb, h]
      · simp [hb]
  · simp [find?, List.find?_append, h]

/-- Exactly the key that is put changes what is found. -/
theorem find?_put (r : Roster key) (a : α) (k : κ) :
    (r.put a).find? k = if key a = k then some a else r.find? k := by
  split
  · next h => rw [← h, find?_put_self]
  · next h => exact find?_put_of_ne r h

theorem find?_erase (r : Roster key) (k l : κ) :
    (r.erase k).find? l = if l = k then none else r.find? l := by
  simp only [find?, erase]
  induction r.items with
  | nil => simp
  | cons b rest ih =>
    rw [List.filter_cons]
    by_cases hb : key b = k
    · simp only [hb, ne_eq, not_true_eq_false, decide_false, Bool.false_eq_true, if_false, ih,
        List.find?_cons]
      by_cases hl : l = k
      · simp [hl]
      · simp [hl, Ne.symm hl]
    · simp only [ne_eq, hb, not_false_eq_true, decide_true, if_true, List.find?_cons, ih]
      by_cases hl : key b = l
      · simp [hl, hl ▸ hb]
      · simp [hl]

@[simp] theorem find?_erase_self (r : Roster key) (k : κ) : (r.erase k).find? k = none := by
  simp [find?_erase]

/-- Erasing a key that is not there changes nothing. -/
theorem erase_eq_self {r : Roster key} {k : κ} (h : r.contains k = false) : r.erase k = r := by
  have hk : ∀ a ∈ r.items, key a ≠ k := by
    intro a ha hak
    have := contains_iff.2 (hak ▸ List.mem_map_of_mem (f := key) ha)
    simp [h] at this
  cases r with
  | mk items hn =>
    simp only [erase, mk.injEq]
    exact List.filter_eq_self.2 fun a ha => by simpa using hk a ha

end Roster

end Multidomain
