import Multidomain.Proofs.Json.Canonical

/-!
# Values on their way to a reader

What is written as JSON reaches its reader in one of two ways: as it was written, or as part of a free
value, which is in canonical form by then. A reader fits a writer if it gives back what was written
either way, and readers are built as writers are: from readers of fields, of lists, and of tagged
records.
-/

namespace Multidomain.Json

/-- How a written value reaches its reader. -/
inductive Passage where
  | asWritten
  | asValue
  deriving DecidableEq, Repr

namespace Passage

/-- The value that arrives. -/
def carry : Passage → Json → Json
  | asWritten, value => value
  | asValue, value => value.canonical

variable (p : Passage)

theorem carry_string (s : String) : p.carry (string s) = string s := by cases p <;> rfl

theorem carry_bool (b : Bool) : p.carry (bool b) = bool b := by cases p <;> rfl

theorem carry_number (n : Number) : p.carry (number n) = number n := by cases p <;> rfl

theorem carry_nat (n : Nat) : p.carry (nat n) = nat n := p.carry_number _

theorem carry_array (items : List Json) : p.carry (array items) = array (items.map p.carry) := by
  cases p with
  | asWritten => exact congrArg array (List.map_id _).symm
  | asValue => exact congrArg array (canonicalItems_eq items)

theorem carry_ne_null {value : Json} (h : value ≠ null) : p.carry value ≠ null := by
  cases p with
  | asWritten => exact h
  | asValue => cases value <;> simp_all [carry, canonical]

theorem legible_carry {value : Json} (h : value.legible = true) :
    (p.carry value).legible = true := by
  cases p with
  | asWritten => exact h
  | asValue => exact legible_canonical h

end Passage

/-! ### Records that arrive -/

/-- The value is an object with names all different, which bears the fields that are there, each as
the passage carries it. -/
def Bears (p : Passage) (value : Json) (fields : List (String × Option Json)) : Prop :=
  ∃ written, value = object written ∧ (written.map Prod.fst).Nodup
    ∧ ∀ name, written.lookup name = ((fields.lookup name).join).map p.carry

variable {p : Passage} {fields : List (String × Option Json)} {value : Json}

theorem bears_carry (p : Passage) (h : (fields.map Prod.fst).Nodup) :
    Bears p (p.carry (ofFields fields)) fields := by
  cases p with
  | asWritten =>
    refine ⟨_, rfl, nodup_ofFields h, fun name => ?_⟩
    exact (lookup_ofFields h name).trans Option.map_id'.symm
  | asValue => exact holds_canonical h

theorem bears_object (p : Passage) {written : List (String × Json)}
    (h : (written.map Prod.fst).Nodup) :
    Bears p (p.carry (object written)) (written.map fun f => (f.1, some f.2)) := by
  have hall : object written = ofFields (written.map fun f => (f.1, some f.2)) := by
    simp [ofFields, List.filterMap_map]
  rw [hall]
  apply bears_carry
  rwa [List.map_map]

theorem filter_name_of_lookup {written : List (String × Json)}
    (h : (written.map Prod.fst).Nodup) {name : String} (hlookup : written.lookup name = some value) :
    written.filter (fun f => f.1 = name) = [(name, value)] := by
  have hmem := (lookup_eq_some_iff h).1 hlookup
  obtain ⟨before, after, rfl⟩ := List.append_of_mem hmem
  rw [List.map_append, List.map_cons, List.nodup_middle, List.nodup_cons, List.mem_append,
    not_or] at h
  obtain ⟨⟨hbefore, hafter⟩, -⟩ := h
  have hother : ∀ fields : List (String × Json), name ∉ fields.map Prod.fst →
      fields.filter (fun f => f.1 = name) = [] := by
    intro fields hname
    rw [List.filter_eq_nil_iff]
    rintro f hf heq
    exact hname (List.mem_map.2 ⟨f, hf, of_decide_eq_true heq⟩)
  rw [List.filter_append, List.filter_cons_of_pos (by simp), hother _ hbefore, hother _ hafter,
    List.nil_append]

theorem lookup_filter_ne (written : List (String × Json)) (left name : String) :
    (written.filter fun f => f.1 ≠ left).lookup name
      = if name = left then none else written.lookup name := by
  induction written with
  | nil => simp
  | cons f rest ih =>
    obtain ⟨other, value⟩ := f
    by_cases hother : other = left
    · subst hother
      rw [List.filter_cons_of_neg (by simp), ih, List.lookup_cons]
      by_cases hname : name = other
      · simp [hname]
      · simp [hname, beq_false_of_ne hname]
    · rw [List.filter_cons_of_pos (by simp [hother]), List.lookup_cons, List.lookup_cons, ih]
      by_cases hname : name = other
      · simp [hname, hother]
      · rw [beq_false_of_ne hname]

namespace Bears

theorem exists_record (h : Bears p value fields) (names : List String) :
    ∃ r, value.record? names = some r
      ∧ ∀ name, r.lookup name = ((fields.lookup name).join).map p.carry := by
  obtain ⟨written, rfl, hnodup, hlookup⟩ := h
  exact ⟨written, record?_of_nodup hnodup names, hlookup⟩

/-- A tagged record that arrives is told by its tag, and bears its other fields. -/
theorem exists_tagged {tag : String} (h : Bears p value (("type", some (string tag)) :: fields))
    (htype : "type" ∉ fields.map Prod.fst) (hlegible : value.legible = true) :
    ∃ content, value.tagged? = some (tag, content) ∧ Bears p content fields := by
  -- The tag is taken out and may stand anywhere, since a free value has its fields in order of their names.
  obtain ⟨written, rfl, hnodup, hlookup⟩ := h
  have htag : written.lookup "type" = some (string tag) := (hlookup "type").trans (by
    simp [p.carry_string])
  refine ⟨object (written.filter fun f => f.1 ≠ "type"), ?_, _, rfl, ?_, fun name => ?_⟩
  · simp only [tagged?, if_pos hlegible, filter_name_of_lookup hnodup htag]
  · exact hnodup.sublist (List.filter_sublist.map _)
  · rw [lookup_filter_ne, hlookup, List.lookup_cons]
    by_cases hname : name = "type"
    · have hnone : fields.lookup "type" = none := by
        rw [List.lookup_eq_none_iff]
        intro f hf
        simpa using fun heq => htype (List.mem_map.2 ⟨f, hf, heq.symm⟩)
      simp [hname, hnone]
    · rw [if_neg hname, beq_false_of_ne hname]

end Bears

/-! ### Readers that fit writers -/

/-- The reader gives back what was written, whichever way it came. -/
def Reads {α : Type} (write : α → Json) (read : Json → Option α) : Prop :=
  ∀ (p : Passage) (a : α), read (p.carry (write a)) = some a

variable {α : Type} {write : α → Json} {read : Json → Option α}

namespace Reads

theorem list (h : Reads write read) :
    Reads (fun items => array (items.map write)) (list? read) := by
  intro p items
  have hread : read ∘ p.carry ∘ write = some := funext (h p)
  rw [p.carry_array, list?, List.map_map, List.mapM_map, hread]
  exact List.mapM_pure.trans (congrArg some (List.map_id _))

variable {r : Record} {name : String}

theorem required (h : Reads write read) {a : α}
    (hlookup : r.lookup name = some (p.carry (write a))) : r.required name read = some a := by
  rw [Record.required, hlookup, Option.bind_some, h p a]

theorem defaulted (h : Reads write read) {a standIn : α}
    (hlookup : r.lookup name = some (p.carry (write a))) :
    r.defaulted name standIn read = some a := by
  rw [Record.defaulted, hlookup]
  exact h p a

theorem optional (h : Reads write read) (hnull : ∀ a, write a ≠ null) {a? : Option α}
    (hlookup : r.lookup name = (a?.map write).map p.carry) : r.optional name read = some a? := by
  unfold Record.optional
  rw [hlookup]
  cases a? with
  | none => rfl
  | some a =>
    rw [Option.map_some, Option.map_some]
    split
    · next heq => cases heq
    · next heq => exact absurd (Option.some.inj heq) (p.carry_ne_null (hnull a))
    · next heq => rw [← Option.some.inj heq, h p a, Option.map_some]

end Reads

theorem reads_text : Reads string text? := by
  intro p s
  rw [p.carry_string]
  rfl

theorem reads_bool : Reads bool bool? := by
  intro p b
  rw [p.carry_bool]
  rfl

/-- Free values are taken in canonical form, whichever way they came. -/
theorem any?_carry (p : Passage) (h : value.legible = true) :
    (p.carry value).any? = some value.canonical := by
  rw [any?, if_pos (p.legible_carry h)]
  cases p with
  | asWritten => rfl
  | asValue => exact congrArg some (canonical_canonical value)

theorem list?_any?_carry (p : Passage) {items : List Json}
    (h : ∀ item ∈ items, item.legible = true) :
    (p.carry (array items)).list? any? = some (items.map canonical) := by
  rw [p.carry_array, list?]
  induction items with
  | nil => rfl
  | cons item rest ih =>
    rw [List.forall_mem_cons] at h
    simp [List.mapM_cons, any?_carry p h.1, ih h.2]

theorem nat?_nat {n limit : Nat} (h : n ≤ limit) : (nat n).nat? limit = some n := by
  simp [nat, nat?, h]

end Multidomain.Json
