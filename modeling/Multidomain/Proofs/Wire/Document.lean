import Multidomain.Proofs.Json.RoundTrip
import Multidomain.Proofs.Wire.Entry
import Multidomain.Wire.Document

/-!
# Documents that arrive

What a node writes reaches its parent as a text. Devices, links and hosts are written without fractions
and with little nesting, so the text is within what every reader takes, whatever the ids, ports, names
and addresses in it are. The document comes out of the text with each of its elements in canonical form.
-/

namespace Multidomain

open Json (Bears Passage)

/-! ### Entries -/

variable {levels : Nat}

theorem ConnectPoint.plain_toJson (p : ConnectPoint) : p.toJson.plain (levels + 1) = true := by
  apply Json.plain_object
  simp [Json.plain_port]

theorem LinkEntry.plain_toJson (l : LinkEntry) : l.toJson.plain (levels + 2) = true := by
  apply Json.plain_ofFields
  simp [ConnectPoint.plain_toJson]

theorem DeviceEntry.plain_toJson (d : DeviceEntry) : d.toJson.plain (levels + 2) = true := by
  have hannotations : ∀ t : Table String String,
      (Json.object (t.items.map fun f => (f.1, .string f.2))).plain (levels + 1) = true := by
    intro t
    apply Json.plain_object
    intro f hf
    obtain ⟨entry, -, rfl⟩ := List.mem_map.1 hf
    exact Json.plain_string entry.2
  apply Json.plain_ofFields
  simp only [List.forall_mem_cons, Option.forall_mem_map]
  simp [hannotations]

theorem HostEntry.plain_toJson (h : HostEntry) : h.toJson.plain (levels + 2) = true := by
  have haddresses : (Json.array (h.addresses.map .string)).plain (levels + 1) = true := by
    apply Json.plain_array
    simp
  have hlocation : (locationToJson h.location).plain (levels + 1) = true := by
    apply Json.plain_object
    simp [Json.plain_port]
  apply Json.plain_ofFields
  simp [haddresses, hlocation]

theorem LinkEntry.legible_toJson (l : LinkEntry) : l.toJson.legible = true :=
  Json.legible_of_plain (l.plain_toJson : l.toJson.plain 2 = true)

theorem DeviceEntry.legible_toJson (d : DeviceEntry) : d.toJson.legible = true :=
  Json.legible_of_plain (d.plain_toJson : d.toJson.plain 2 = true)

/-! ### Documents -/

namespace TopologyDocument

/-- The elements of a document. -/
def elements : TopologyDocument → List Json
  | devices elements => elements
  | links elements => elements
  | hosts elements => elements
  | edgeUpdates updates => updates.added ++ updates.deleted

/-- The document with its elements in canonical form. -/
def canonical : TopologyDocument → TopologyDocument
  | devices elements => devices (elements.map Json.canonical)
  | links elements => links (elements.map Json.canonical)
  | hosts elements => hosts (elements.map Json.canonical)
  | edgeUpdates updates =>
    edgeUpdates ⟨updates.added.map Json.canonical, updates.deleted.map Json.canonical⟩

end TopologyDocument

/-- An object with a single field holds nothing else in canonical form. -/
theorem Json.field?_canonical (name other : String) (content : Json) :
    (Json.object [(name, content)]).canonical.field? other
      = if other = name then some content.canonical else none := by
  have hfields : Json.object [(name, content)] = .ofFields [(name, some content)] := rfl
  obtain ⟨written, hwritten, -, hlookup⟩ :=
    (hfields ▸ Json.holds_canonical (by simp) : (Json.object [(name, content)]).canonical.Holds _)
  rw [hwritten, Json.field?, hlookup, List.lookup_cons]
  by_cases h : other = name
  · simp [h]
  · rw [beq_false_of_ne h, if_neg h]
    rfl

/-- Links added and deleted are read back, each in canonical form. -/
theorem EdgeUpdates.read?_carry (p : Passage) {u : EdgeUpdates}
    (h : ∀ value ∈ u.added ++ u.deleted, value.legible = true) :
    read? (p.carry u.toJson) = some ⟨u.added.map Json.canonical, u.deleted.map Json.canonical⟩ := by
  rw [List.forall_mem_append] at h
  have hbears : Bears p (p.carry u.toJson) _ := Json.bears_object p (by simp)
  obtain ⟨r, hr, hlookup⟩ := hbears.exists_record ["added", "deleted"]
  have hadded : r.defaulted "added" [] (Json.list? Json.any?)
      = some (u.added.map Json.canonical) := by
    rw [Json.Record.defaulted, hlookup]
    exact Json.list?_any?_carry p h.1
  have hdeleted : r.defaulted "deleted" [] (Json.list? Json.any?)
      = some (u.deleted.map Json.canonical) := by
    rw [Json.Record.defaulted, hlookup]
    exact Json.list?_any?_carry p h.2
  simp [read?, hr, hadded, hdeleted]

theorem EdgeUpdates.readDocument?_carry (p : Passage) {u : EdgeUpdates}
    (h : ∀ value ∈ u.added ++ u.deleted, value.legible = true) :
    readDocument? (p.carry u.toDocument)
      = some ⟨u.added.map Json.canonical, u.deleted.map Json.canonical⟩ := by
  have hbears : Bears p (p.carry u.toDocument) _ := Json.bears_object p (by simp)
  obtain ⟨r, hr, hlookup⟩ := hbears.exists_record ["edgeUpdates"]
  have hupdates : r.required "edgeUpdates" read?
      = some ⟨u.added.map Json.canonical, u.deleted.map Json.canonical⟩ := by
    rw [Json.Record.required, hlookup]
    exact read?_carry p h
  simp [readDocument?, hr, hupdates]

theorem TopologyDocument.legible_toJson {d : TopologyDocument}
    (h : ∀ value ∈ d.elements, value.legible = true) : d.toJson.legible = true := by
  cases d with
  | devices items | links items | hosts items =>
    simpa [toJson, elements, Json.legible, Json.legibleFields, Json.legibleItems_iff] using h
  | edgeUpdates u =>
    rw [elements, List.forall_mem_append] at h
    simpa [toJson, EdgeUpdates.toDocument, EdgeUpdates.toJson, Json.legible, Json.legibleFields,
      Json.legibleItems_iff] using h

/-- A document that was written is read as itself, its elements in canonical form. -/
theorem TopologyDocument.ofJson_canonical {d : TopologyDocument}
    (h : ∀ value ∈ d.elements, value.legible = true) :
    ofJson d.toJson.canonical = .ok d.canonical := by
  cases d with
  | devices elements =>
    have hitems : (Json.array elements).canonical.list? Json.any? = _ :=
      Json.list?_any?_carry .asValue h
    simp [ofJson, toJson, Json.field?_canonical, hitems, canonical]
  | links elements =>
    have hitems : (Json.array elements).canonical.list? Json.any? = _ :=
      Json.list?_any?_carry .asValue h
    simp [ofJson, toJson, Json.field?_canonical, hitems, canonical]
  | hosts elements =>
    have hitems : (Json.array elements).canonical.list? Json.any? = _ :=
      Json.list?_any?_carry .asValue h
    simp [ofJson, toJson, Json.field?_canonical, hitems, canonical]
  | edgeUpdates u =>
    have hupdates : EdgeUpdates.read? u.toJson.canonical = _ := EdgeUpdates.read?_carry .asValue h
    simp [ofJson, toJson, EdgeUpdates.toDocument, Json.field?_canonical, hupdates, canonical]

namespace TopologyDocument

variable {d : TopologyDocument}

theorem plain_toJson (h : ∀ value ∈ d.elements, ∀ levels, value.plain (levels + 2) = true) :
    d.toJson.plain Json.deepest = true := by
  cases d with
  | devices items | links items | hosts items =>
    have hitems : (Json.array items).plain 126 = true :=
      Json.plain_array fun item hitem => h item hitem 123
    apply Json.plain_object
    simp [hitems]
  | edgeUpdates u =>
    rw [elements, List.forall_mem_append] at h
    have hadded : (Json.array u.added).plain 125 = true :=
      Json.plain_array fun item hitem => h.1 item hitem 122
    have hdeleted : (Json.array u.deleted).plain 125 = true :=
      Json.plain_array fun item hitem => h.2 item hitem 122
    have hupdates : u.toJson.plain 126 = true := by
      apply Json.plain_object
      simp [hadded, hdeleted]
    apply Json.plain_object
    simp [hupdates]

/-- The text of a document is read as the document. -/
theorem parse_render (h : ∀ value ∈ d.elements, ∀ levels, value.plain (levels + 2) = true) :
    parse (Json.bytesOf d.toJson.render) = .ok d.canonical := by
  have hplain := plain_toJson h
  have hlegible : ∀ value ∈ d.elements, value.legible = true := fun value hvalue =>
    Json.legible_of_plain (h value hvalue 0)
  rw [parse, Json.parse?_render hplain, Option.bind_some, Json.any?,
    if_pos (Json.legible_of_plain hplain)]
  exact ofJson_canonical hlegible

end TopologyDocument

end Multidomain
