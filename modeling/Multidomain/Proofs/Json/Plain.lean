import Mathlib.Data.Option.Basic
import Multidomain.Json.Record
import Multidomain.Proofs.Text.Numeral
import Multidomain.Wire.Entry

/-!
# Plain values

The values that nodes send each other are plain: their numbers are whole and not negative, no part of
them is illegible, and they are nested a few levels deep.
-/

namespace Multidomain.Json

mutual

/-- Whether a value is one that nodes send each other: all its numbers are whole and of 64 bits, no part
of it is illegible, and it has at most so many levels. -/
def plain : Json → Nat → Bool
  | null, _ | bool _, _ | string _, _ => true
  | number (.int n), _ => 0 ≤ n && n ≤ Text.greatest 64
  | number (.double _), _ => false
  | array items, levels => 0 < levels && plainItems items (levels - 1)
  | object fields, levels => 0 < levels && plainFields fields (levels - 1)
  | illegible, _ => false

def plainItems : List Json → Nat → Bool
  | [], _ => true
  | item :: rest, levels => plain item levels && plainItems rest levels

def plainFields : List (String × Json) → Nat → Bool
  | [], _ => true
  | (_, value) :: rest, levels => plain value levels && plainFields rest levels

end

variable {levels : Nat}

@[simp] theorem plain_string (s : String) : (string s).plain levels = true := by rw [plain]

@[simp] theorem plain_bool (b : Bool) : (bool b).plain levels = true := by rw [plain]

theorem plain_port (port : PortNumber) : (nat port.toNat).plain levels = true := by
  have hle := Text.toNat_le_greatest port
  simp only [nat, plain, Bool.and_eq_true, decide_eq_true_eq]
  omega

theorem plainItems_iff {items : List Json} :
    plainItems items levels = true ↔ ∀ item ∈ items, item.plain levels = true := by
  induction items with
  | nil => simp [plainItems]
  | cons item rest ih => simp [plainItems, ih]

theorem plainFields_iff {fields : List (String × Json)} :
    plainFields fields levels = true ↔ ∀ f ∈ fields, f.2.plain levels = true := by
  induction fields with
  | nil => simp [plainFields]
  | cons f rest ih => simp [plainFields, ih]

theorem plain_array {items : List Json} (h : ∀ item ∈ items, item.plain levels = true) :
    (array items).plain (levels + 1) = true := by
  simpa [plain, plainItems_iff] using h

theorem plain_object {fields : List (String × Json)} (h : ∀ f ∈ fields, f.2.plain levels = true) :
    (object fields).plain (levels + 1) = true := by
  simpa [plain, plainFields_iff] using h

theorem plain_ofFields {fields : List (String × Option Json)}
    (h : ∀ f ∈ fields, ∀ value ∈ f.2, value.plain levels = true) :
    (ofFields fields).plain (levels + 1) = true := by
  apply plain_object
  intro f hf
  obtain ⟨f', hf', hvalue⟩ := List.mem_filterMap.1 hf
  obtain ⟨value, hsome, rfl⟩ := Option.map_eq_some_iff.1 hvalue
  exact h f' hf' value hsome

mutual

theorem legible_of_plain : ∀ {value : Json} {levels : Nat}, value.plain levels = true →
    value.legible = true
  | null, _, _ | bool _, _, _ | number _, _, _ | string _, _, _ => rfl
  | array items, levels, h => by
    rw [plain, Bool.and_eq_true] at h
    rw [legible]
    exact legibleItems_of_plain h.2
  | object fields, levels, h => by
    rw [plain, Bool.and_eq_true] at h
    rw [legible]
    exact legibleFields_of_plain h.2

theorem legibleItems_of_plain : ∀ {items : List Json} {levels : Nat},
    plainItems items levels = true → legibleItems items = true
  | [], _, _ => rfl
  | item :: rest, levels, h => by
    rw [plainItems, Bool.and_eq_true] at h
    rw [legibleItems, legible_of_plain h.1, legibleItems_of_plain h.2]
    rfl

theorem legibleFields_of_plain : ∀ {fields : List (String × Json)} {levels : Nat},
    plainFields fields levels = true → legibleFields fields = true
  | [], _, _ => rfl
  | (_, value) :: rest, levels, h => by
    rw [plainFields, Bool.and_eq_true] at h
    rw [legibleFields, legible_of_plain h.1, legibleFields_of_plain h.2]
    rfl

end

end Multidomain.Json
