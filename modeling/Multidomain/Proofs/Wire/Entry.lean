import Multidomain.Proofs.Json.Passage
import Multidomain.Proofs.Text.Numeral
import Multidomain.Wire.Entry

/-!
# Entries read back

Each entry has a writer and a reader, and the reader gives back what was written, whether it is read as
it stands or out of a free value. The two do not mirror each other field by field: absent fields are not
written at all, and annotations arrive in order of their names.
-/

namespace Multidomain

open Json (Bears Passage Reads)

/-! ### Single values -/

theorem DeviceId.reads : Reads (fun id : DeviceId => .string id.text) read? := by
  intro p id
  rw [p.carry_string]
  rfl

/-- A port is read back from the number that stands for it. -/
theorem Json.lenient64?_nat (port : UInt64) : (Json.nat port.toNat).lenient64? = some port := by
  simp [Json.lenient64?, Json.nat, Json.nat?, Text.toNat_le_greatest port]

/-- A port that was written as a number. -/
theorem Json.reads_portNumber : Reads (fun port : PortNumber => nat port.toNat) lenient64? := by
  intro p port
  rw [p.carry_nat]
  exact lenient64?_nat port

/-! ### Entries -/

theorem ConnectPoint.reads : Reads toJson read? := by
  intro p point
  have hbears : Bears p (p.carry point.toJson) _ := Json.bears_object p (by simp)
  obtain ⟨r, hr, hlookup⟩ := hbears.exists_record ["device", "port"]
  have hdevice : r.required "device" DeviceId.read? = some point.device :=
    DeviceId.reads.required (hlookup "device")
  have hport : r.required "port" Json.lenient64? = some point.port :=
    Json.reads_portNumber.required (hlookup "port")
  simp [read?, hr, hdevice, hport]

theorem LinkEntry.reads : Reads toJson read? := by
  intro p l
  have hbears : Bears p (p.carry l.toJson) _ := Json.bears_carry p (by simp)
  obtain ⟨r, hr, hlookup⟩ := hbears.exists_record ["src", "dst", "type", "state"]
  have hsrc : r.required "src" ConnectPoint.read? = some l.ends.src :=
    ConnectPoint.reads.required (hlookup "src")
  have hdst : r.required "dst" ConnectPoint.read? = some l.ends.dst :=
    ConnectPoint.reads.required (hlookup "dst")
  have hkind : r.optional "type" Json.text? = some l.kind :=
    Json.reads_text.optional (fun _ => Json.noConfusion) (hlookup "type")
  have hstate : r.optional "state" Json.text? = some l.state :=
    Json.reads_text.optional (fun _ => Json.noConfusion) (hlookup "state")
  simp [read?, hr, hsrc, hdst, hkind, hstate]

theorem LinkEntry.read?_toJson (l : LinkEntry) : read? l.toJson = some l := reads .asWritten l

theorem LinkEntry.read?_canonical (l : LinkEntry) : read? l.toJson.canonical = some l :=
  reads .asValue l

namespace HostEntry

theorem reads_location : Reads locationToJson readLocation? := by
  intro p point
  have hbears : Bears p (p.carry (locationToJson point)) _ := Json.bears_object p (by simp)
  obtain ⟨r, hr, hlookup⟩ := hbears.exists_record ["elementId", "port"]
  have hdevice : r.required "elementId" DeviceId.read? = some point.device :=
    DeviceId.reads.required (hlookup "elementId")
  have hport : r.required "port" Json.lenient64? = some point.port :=
    Json.reads_portNumber.required (hlookup "port")
  simp [readLocation?, hr, hdevice, hport]

theorem reads : Reads toJson read? := by
  intro p h
  have hbears : Bears p (p.carry h.toJson) _ := Json.bears_carry p (by simp)
  obtain ⟨r, hr, hlookup⟩ := hbears.exists_record ["id", "mac", "vlan", "ipAddress", "location"]
  have hid : r.optional "id" Json.text? = some h.id :=
    Json.reads_text.optional (fun _ => Json.noConfusion) (hlookup "id")
  have hmac : r.required "mac" Json.text? = some h.mac :=
    Json.reads_text.required (hlookup "mac")
  have hvlan : r.required "vlan" Json.text? = some h.vlan :=
    Json.reads_text.required (hlookup "vlan")
  have haddresses : r.defaulted "ipAddress" [] (Json.list? Json.text?) = some h.addresses :=
    Json.reads_text.list.defaulted (hlookup "ipAddress")
  have hlocation : r.required "location" readLocation? = some h.location :=
    reads_location.required (hlookup "location")
  simp [read?, hr, hid, hmac, hvlan, haddresses, hlocation]

end HostEntry

/-- The same texts, in order of their names. -/
def Table.inOrder (t : Table String String) : Table String String where
  items := t.items.mergeSort fun a b => a.1 ≤ b.1
  nodup_keys := ((List.mergeSort_perm ..).map Prod.fst).nodup_iff.2 t.nodup_keys

theorem Table.same_inOrder (t : Table String String) : t.Same t.inOrder := by
  intro name
  ext entry
  have hfind : ∀ u : Table String String,
      u.find? name = some entry ↔ entry ∈ u.items ∧ entry.1 = name := by
    intro u
    constructor
    · exact fun h => ⟨Roster.mem_of_find? h, Roster.key_of_find? h⟩
    · rintro ⟨hmem, rfl⟩
      exact Roster.mem_items_iff.1 hmem
  rw [hfind, hfind, inOrder, List.mem_mergeSort]

theorem Json.texts?_of_table (t : Table String String) :
    (object (t.items.map fun (k, v) => (k, .string v))).texts? = some t := by
  have hread : ((fun f : String × Json => (text? f.2).map fun s => (f.1, s))
      ∘ fun (k, v) => (k, .string v)) = some := rfl
  have hitems : (Table.ofList t.items).items = t.items :=
    Roster.items_putAll_of_nodup (r := Roster.empty) t.nodup_keys
  rw [texts?, List.mapM_map, hread]
  rw [show List.mapM some t.items = some t.items from
    List.mapM_pure.trans (congrArg some (List.map_id _)), Option.map_some,
    Roster.eq_of_items_eq hitems]

theorem Json.canonical_table (t : Table String String) :
    (object (t.items.map fun (k, v) => (k, .string v))).canonical
      = object (t.inOrder.items.map fun (k, v) => (k, .string v)) := by
  have hfields : canonicalFields (t.items.map fun (k, v) => (k, .string v))
      = t.items.map fun (k, v) => (k, .string v) := by
    rw [canonicalFields_eq, List.map_map]
    rfl
  have hnames : ((t.items.map fun (k, v) => (k, Json.string v)).map Prod.fst).Nodup := by
    rw [List.map_map]
    exact t.nodup_keys
  rw [canonical_object, hfields, arranged, items_ofList hnames, Table.inOrder]
  refine congrArg object (Eq.symm (List.map_mergeSort ?_))
  intro _ _ _ _
  rfl

/-- A table of texts as it arrives. -/
def Json.Passage.arrange : Passage → Table String String → Table String String
  | asWritten, t => t
  | asValue, t => t.inOrder

theorem Json.Record.optional_table {p : Passage} {r : Record} {name : String}
    {table? : Option (Table String String)}
    (hlookup : r.lookup name
      = (table?.map fun t => Json.object (t.items.map fun (k, v) => (k, .string v))).map p.carry) :
    r.optional name Json.texts? = some (table?.map p.arrange) := by
  unfold optional
  rw [hlookup]
  cases table? with
  | none => rfl
  | some t =>
    cases p with
    | asWritten => exact congrArg (Option.map some) (texts?_of_table t)
    | asValue =>
      rw [Option.map_some, Option.map_some, Passage.carry, canonical_table]
      exact congrArg (Option.map some) (texts?_of_table t.inOrder)

namespace DeviceEntry

/-- A device entry is read back, its annotations in the order in which they arrive. -/
theorem read?_carry (p : Passage) (d : DeviceEntry) :
    read? (p.carry d.toJson) = some { d with annotations := d.annotations.map p.arrange } := by
  have hbears : Bears p (p.carry d.toJson) _ := Json.bears_carry p (by simp)
  obtain ⟨r, hr, hlookup⟩ := hbears.exists_record names
  have htext : ∀ {name : String} {text? : Option String},
      r.lookup name = (text?.map Json.string).map p.carry →
        r.optional name Json.text? = some text? :=
    Json.reads_text.optional fun _ => Json.noConfusion
  have hid : r.required "id" DeviceId.read? = some d.id := DeviceId.reads.required (hlookup "id")
  have havailable : r.optional "available" Json.bool? = some d.available :=
    Json.reads_bool.optional (fun _ => Json.noConfusion) (hlookup "available")
  have hannotations : r.optional "annotations" Json.texts? = some (d.annotations.map p.arrange) :=
    Json.Record.optional_table (hlookup "annotations")
  simp [read?, hr, hid, havailable, htext (hlookup "type"), htext (hlookup "role"),
    htext (hlookup "mfr"), htext (hlookup "hw"), htext (hlookup "sw"), htext (hlookup "serial"),
    htext (hlookup "chassisId"), hannotations]

/-- A device entry out of a free value is read back, its annotations perhaps in another order. -/
theorem exists_read?_canonical (d : DeviceEntry) :
    ∃ annotations, read? d.toJson.canonical = some { d with annotations } :=
  ⟨_, read?_carry .asValue d⟩

end DeviceEntry

end Multidomain
