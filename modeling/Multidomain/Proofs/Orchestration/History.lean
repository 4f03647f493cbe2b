import Mathlib.Data.List.Induction
import Multidomain.Orchestration.Uptake

/-!
# What a node has been told

A node comes to its state by the documents that its children send it, one after the other, each
element of a document in its turn. `afterLetters` is the state after any sequence of documents from
any children; `hear` takes up one element. A sequence of documents is a sequence of elements
(`afterLetters_eq_hearAll`), so what one element preserves, every run preserves
(`hearAll_induction`).
-/

namespace Multidomain

/-- A topology document and the child that sent it. -/
structure Letter where
  child : String
  document : TopologyDocument

/-- One element of a document as its child reports it, not yet read. -/
structure Report where
  child : String
  kind : ElementKind
  change : Change
  value : Json

/-- The element that a report holds, where it can be read. -/
def Report.element? (r : Report) : Option Element := Element.read? r.kind r.change r.value

/-- The elements of a document in the order in which they are taken up. -/
def Letter.reports (l : Letter) : List Report :=
  match l.document with
  | .devices elements => elements.map fun value => ⟨l.child, .device, .added, value⟩
  | .links elements => elements.map fun value => ⟨l.child, .link, .added, value⟩
  | .hosts elements => elements.map fun value => ⟨l.child, .host, .added, value⟩
  | .edgeUpdates updates =>
    (updates.added.map fun value => ⟨l.child, .link, .added, value⟩) ++
      updates.deleted.map fun value => ⟨l.child, .link, .removed, value⟩

/-- The elements of a sequence of documents. -/
def reportsOf (letters : List Letter) : List Report := letters.flatMap Letter.reports

/-- Where a list with one more element is split, the split is in the old list or at the end. -/
theorem concat_eq_split {α : Type} {xs before rest : List α} {x r : α}
    (h : xs ++ [x] = before ++ r :: rest) :
    (∃ rest', xs = before ++ r :: rest') ∨ (xs = before ∧ x = r ∧ rest = []) := by
  rcases List.append_eq_append_iff.1 h with ⟨mid, hbefore, hx⟩ | ⟨mid, hxs, hrest⟩
  · cases mid with
    | nil => exact Or.inr ⟨by simpa using hbefore.symm, by simpa using hx⟩
    | cons y ys => simp at hx
  · cases mid with
    | nil => exact Or.inr ⟨by simpa using hxs, by simpa [eq_comm] using hrest⟩
    | cons y ys =>
      obtain ⟨rfl, _⟩ := List.cons.inj hrest
      exact Or.inl ⟨ys, hxs⟩

/-- Something began at one element of a history, given those before it, and all later ones kept it. -/
def Since {α : Type} (Begins : List α → α → Prop) (Keeps : α → Prop) (history : List α) : Prop :=
  ∃ before x rest, history = before ++ x :: rest ∧ Begins before x ∧ ∀ later ∈ rest, Keeps later

section Since

variable {α : Type} {Begins : List α → α → Prop} {Keeps : α → Prop}

theorem not_since_nil : ¬ Since Begins Keeps [] := by simp [Since]

theorem since_concat {history : List α} {x : α} :
    Since Begins Keeps (history ++ [x]) ↔ Begins history x ∨ (Since Begins Keeps history ∧ Keeps x) := by
  constructor
  · rintro ⟨before, first, rest, hsplit, hbegins, hkept⟩
    obtain ⟨rest', rfl⟩ | ⟨rfl, rfl, -⟩ := concat_eq_split hsplit
    · obtain rfl : rest' ++ [x] = rest := by simpa using hsplit
      rw [List.forall_mem_append, List.forall_mem_singleton] at hkept
      exact .inr ⟨⟨before, first, rest', rfl, hbegins, hkept.1⟩, hkept.2⟩
    · exact .inl hbegins
  · rintro (hbegins | ⟨⟨before, first, rest, rfl, hbegins, hkept⟩, hx⟩)
    · exact ⟨history, x, [], rfl, hbegins, by simp⟩
    · refine ⟨before, first, rest ++ [x], by simp, hbegins, ?_⟩
      rw [List.forall_mem_append, List.forall_mem_singleton]
      exact ⟨hkept, hx⟩

end Since

namespace Domain

/-- The domain after one more element. -/
def hear (mode : Abstraction) (d : Domain) (r : Report) : Domain :=
  (d.takeUpJson mode r.child r.kind r.change r.value).1

/-- The domain after a sequence of elements. -/
def hearAll (mode : Abstraction) (d : Domain) (reports : List Report) : Domain :=
  reports.foldl (hear mode) d

/-- The domain of a node that started from nothing, after a sequence of documents. -/
def afterLetters (mode : Abstraction) (letters : List Letter) : Domain :=
  letters.foldl (fun d l => (d.apply mode l.child l.document).1) .empty

variable {mode : Abstraction}

@[simp] theorem hearAll_nil (d : Domain) : d.hearAll mode [] = d := rfl

theorem hearAll_append (d : Domain) (first second : List Report) :
    d.hearAll mode (first ++ second) = (d.hearAll mode first).hearAll mode second :=
  List.foldl_append

theorem hearAll_concat (d : Domain) (reports : List Report) (r : Report) :
    d.hearAll mode (reports ++ [r]) = (d.hearAll mode reports).hear mode r := by
  rw [hearAll_append]
  rfl

/-- A document that has just been received is taken up. -/
theorem applyBytes_eq (child : String) (d : Domain) (bytes : List UInt8) :
    d.applyBytes mode child bytes = (TopologyDocument.parse bytes).map (d.apply mode child) := rfl

theorem takeUpJson_of_element {d : Domain} {r : Report} {e : Element} (h : r.element? = some e) :
    d.takeUpJson mode r.child r.kind r.change r.value = d.takeUp mode r.child e := by
  unfold takeUpJson
  rw [show Element.read? r.kind r.change r.value = some e from h]

theorem takeUpJson_of_no_element {d : Domain} {r : Report} (h : r.element? = none) :
    d.takeUpJson mode r.child r.kind r.change r.value = (d, [], some .malformed) := by
  unfold takeUpJson
  rw [show Element.read? r.kind r.change r.value = none from h]

theorem takeUpAll_fst (child : String) (kind : ElementKind) (change : Change) (values : List Json)
    (d : Domain) :
    (takeUpAll mode child kind change values d).1 =
      d.hearAll mode (values.map fun value => ⟨child, kind, change, value⟩) := by
  induction values generalizing d with
  | nil => rfl
  | cons value rest ih => exact ih (d.hear mode ⟨child, kind, change, value⟩)

theorem apply_fst (d : Domain) (l : Letter) :
    (d.apply mode l.child l.document).1 = d.hearAll mode l.reports := by
  unfold apply Letter.reports
  cases l.document with
  | devices elements => exact takeUpAll_fst ..
  | links elements => exact takeUpAll_fst ..
  | hosts elements => exact takeUpAll_fst ..
  | edgeUpdates updates =>
    simp only [hearAll_append, takeUpAll_fst]

theorem afterLetters_eq_hearAll (letters : List Letter) :
    afterLetters mode letters = Domain.empty.hearAll mode (reportsOf letters) := by
  have hfrom : ∀ d : Domain,
      letters.foldl (fun d l => (d.apply mode l.child l.document).1) d =
        d.hearAll mode (reportsOf letters) := by
    induction letters with
    | nil => intro d; rfl
    | cons l rest ih =>
      intro d
      have hreports : reportsOf (l :: rest) = l.reports ++ reportsOf rest := List.flatMap_cons
      rw [List.foldl_cons, ih, apply_fst, hreports, hearAll_append]
  exact hfrom .empty

/-- What holds of a history without elements, and of a history and its domain whenever it held
before the last element, holds of every history. -/
theorem hearAll_induction {motive : List Report → Domain → Prop} (hnil : motive [] .empty)
    (hstep : ∀ reports r, motive reports (Domain.empty.hearAll mode reports) →
      motive (reports ++ [r]) ((Domain.empty.hearAll mode reports).hear mode r))
    (reports : List Report) : motive reports (Domain.empty.hearAll mode reports) := by
  induction reports using List.reverseRecOn with
  | nil => exact hnil
  | append_singleton reports r ih =>
    rw [hearAll_concat]
    exact hstep reports r ih

end Domain

end Multidomain
