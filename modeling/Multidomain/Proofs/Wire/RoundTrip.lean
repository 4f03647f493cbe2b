import Multidomain.Flow.Rule
import Multidomain.Proofs.Address.Internet
import Multidomain.Proofs.Address.Written
import Multidomain.Proofs.Json.Passage
import Multidomain.Proofs.Wire.Document
import Multidomain.Wire.Command

/-!
# What is written can be read

Every form that travels between nodes has a writer and a reader, and the reader gives back what was
written: `Json.Reads`, for a value that is read as it was written and for one that comes out of a free
value. The two do not mirror each other field by field. Absent fields are not written at all, ports are
written as numbers in one place and as texts in another and are read either way, and Ethernet addresses
go through their textual form.
-/

namespace Multidomain

open Json (Bears Passage Reads)

/-! ### Single values -/

theorem Mac.reads : Reads (fun m : Mac => .string (toString m)) read? := by
  intro p m
  rw [p.carry_string, read?, Json.text?, Option.bind_some, parse_toString]
  rfl

namespace Json

/-- A port that was written as a text. -/
theorem reads_portText : Reads portText lenient64? := by
  intro p port
  have hle := Text.toNat_le_greatest port
  rw [portText, p.carry_string, lenient64?, Text.trim_decimal, Text.readDecimal_decimal hle,
    Option.map_some, UInt64.ofNat_toNat]

theorem reads_word : Reads (fun n : UInt32 => nat n.toNat) FlowDescriptor.readWord? := by
  intro p n
  have hle : n.toNat ≤ Text.greatest 32 := by
    have hlt := n.toNat_lt
    have hgreatest : Text.greatest 32 = 2 ^ 32 - 1 := rfl
    omega
  rw [p.carry_nat, FlowDescriptor.readWord?, nat?_nat hle, Option.map_some, UInt32.ofNat_toNat]

end Json

/-! ### Hosts -/

namespace HostEntry

theorem hostId_ofHost (h : Host) : (ofHost h).hostId = .ok h.id := by
  simp only [hostId, ofHost, Mac.parse_toString, Vlan.parse_toString]
  rfl

theorem ips_ofHost (h : Host) : (ofHost h).ips = h.addresses := by
  show (h.addresses.map toString).filterMap Ip.parse? = h.addresses
  rw [List.filterMap_map, show Ip.parse? ∘ toString = some from funext Ip.parse?_toString,
    List.filterMap_some]

theorem id_eq_of_ofHost_eq {h k : Host} (heq : ofHost h = ofHost k) : h.id = k.id :=
  Except.ok.inj ((hostId_ofHost h).symm.trans (heq ▸ hostId_ofHost k))

end HostEntry

/-! ### Commands -/

theorem Terminal.reads : Reads toJson read? := by
  intro p t
  have hbears : Bears p (p.carry t.toJson) _ := Json.bears_object p (by simp)
  obtain ⟨r, hr, hlookup⟩ := hbears.exists_record ["src", "dst"]
  have hsrc : r.required "src" Mac.read? = some t.src := Mac.reads.required (hlookup "src")
  have hdst : r.required "dst" Mac.read? = some t.dst := Mac.reads.required (hlookup "dst")
  simp [read?, hr, hsrc, hdst]

namespace ProvisioningRequest

theorem reads_body : Reads bodyToJson readBody? := by
  intro p request
  have hbears : Bears p (p.carry request.bodyToJson) _ := Json.bears_carry p (by simp)
  obtain ⟨r, hr, hlookup⟩ := hbears.exists_record ["src", "dst", "terminal"]
  have hsrc : r.required "src" ConnectPoint.read? = some request.src :=
    ConnectPoint.reads.required (hlookup "src")
  have hdst : r.required "dst" ConnectPoint.read? = some request.dst :=
    ConnectPoint.reads.required (hlookup "dst")
  have hterminal : r.optional "terminal" Terminal.read? = some request.terminal :=
    Terminal.reads.optional (fun _ => Json.noConfusion) (hlookup "terminal")
  simp [readBody?, hr, hsrc, hdst, hterminal]

theorem reads : Reads toJson read? := by
  intro p request
  have hbears : Bears p (p.carry request.toJson) _ := Json.bears_object p (by simp)
  obtain ⟨r, hr, hlookup⟩ := hbears.exists_record ["provisioning"]
  have hbody : r.required "provisioning" readBody? = some request :=
    reads_body.required (hlookup "provisioning")
  simp [read?, hr, hbody]

end ProvisioningRequest

/-! ### Flow rules -/

/-- A tagged record with one field besides is told by its tag, and bears that field. -/
theorem Json.exists_content (p : Passage) (tag name : String) (content : Json)
    (hname : name ≠ "type") (hlegible : content.legible = true) :
    ∃ rest r, (p.carry (object [("type", string tag), (name, content)])).tagged? = some (tag, rest)
      ∧ rest.record? [name] = some r ∧ r.lookup name = some (p.carry content) := by
  have hbears : Bears p (p.carry (object [("type", string tag), (name, content)]))
      [("type", some (string tag)), (name, some content)] :=
    bears_object p (by simpa using hname.symm)
  have hwhole : (object [("type", string tag), (name, content)]).legible = true := by
    simp [legible, legibleFields, hlegible]
  obtain ⟨rest, htagged, hrest⟩ :=
    hbears.exists_tagged (by simpa using hname.symm) (p.legible_carry hwhole)
  obtain ⟨r, hr, hlookup⟩ := hrest.exists_record [name]
  exact ⟨rest, r, htagged, hr, by simp [hlookup]⟩

theorem MatchField.reads : Reads toJson read? := by
  intro p f
  cases f with
  | inPort port =>
    obtain ⟨rest, r, htagged, hr, hlookup⟩ :=
      Json.exists_content p "IN_PORT" "port" (portText port) (by decide) rfl
    have hport : r.required "port" Json.lenient64? = some port :=
      Json.reads_portText.required hlookup
    simp [read?, toJson, htagged, hr, hport]
  | ethSrc mac =>
    obtain ⟨rest, r, htagged, hr, hlookup⟩ :=
      Json.exists_content p "ETH_SRC" "mac" (.string (toString mac)) (by decide) rfl
    have hmac : r.required "mac" Mac.read? = some mac := Mac.reads.required hlookup
    simp [read?, toJson, htagged, hr, hmac]
  | ethDst mac =>
    obtain ⟨rest, r, htagged, hr, hlookup⟩ :=
      Json.exists_content p "ETH_DST" "mac" (.string (toString mac)) (by decide) rfl
    have hmac : r.required "mac" Mac.read? = some mac := Mac.reads.required hlookup
    simp [read?, toJson, htagged, hr, hmac]

theorem Instruction.reads : Reads toJson read? := by
  intro p i
  cases i with
  | output port =>
    obtain ⟨rest, r, htagged, hr, hlookup⟩ :=
      Json.exists_content p "OUTPUT" "port" (portText port) (by decide) rfl
    have hport : r.required "port" Json.lenient64? = some port :=
      Json.reads_portText.required hlookup
    simp [read?, toJson, htagged, hr, hport]

namespace FlowDescriptor

theorem reads_treatment : Reads treatmentToJson readTreatment? := by
  intro p instructions
  have hbears : Bears p (p.carry (treatmentToJson instructions)) _ := Json.bears_object p (by simp)
  obtain ⟨r, hr, hlookup⟩ := hbears.exists_record ["instructions"]
  have hinstructions : r.required "instructions" (Json.list? Instruction.read?) = some instructions :=
    Instruction.reads.list.required (hlookup "instructions")
  simp [readTreatment?, hr, hinstructions]

theorem reads_selector : Reads selectorToJson readSelector? := by
  intro p fields
  have hbears : Bears p (p.carry (selectorToJson fields)) _ := Json.bears_object p (by simp)
  obtain ⟨r, hr, hlookup⟩ := hbears.exists_record ["criteria"]
  have hfields : r.required "criteria" (Json.list? MatchField.read?) = some fields :=
    MatchField.reads.list.required (hlookup "criteria")
  simp [readSelector?, hr, hfields]

theorem reads : Reads toJson read? := by
  intro p d
  have hbears : Bears p (p.carry d.toJson) _ := Json.bears_object p (by simp)
  obtain ⟨r, hr, hlookup⟩ := hbears.exists_record names
  have hpriority : r.required "priority" readWord? = some d.priority :=
    Json.reads_word.required (hlookup "priority")
  have htimeout : r.required "timeout" readWord? = some d.timeout :=
    Json.reads_word.required (hlookup "timeout")
  have hpermanent : r.required "isPermanent" Json.bool? = some d.permanent :=
    Json.reads_bool.required (hlookup "isPermanent")
  have hdevice : r.required "deviceId" DeviceId.read? = some d.device :=
    DeviceId.reads.required (hlookup "deviceId")
  have happ : r.required "appId" Json.text? = some d.app :=
    Json.reads_text.required (hlookup "appId")
  have hinstructions : r.required "treatment" readTreatment? = some d.instructions :=
    reads_treatment.required (hlookup "treatment")
  have hfields : r.required "selector" readSelector? = some d.fields :=
    reads_selector.required (hlookup "selector")
  simp [read?, hr, hpriority, htimeout, hpermanent, hdevice, happ, hinstructions, hfields]

theorem legible_toJson (d : FlowDescriptor) : d.toJson.legible = true := by
  have hinstruction : ∀ i : Instruction, i.toJson.legible = true := by
    rintro ⟨port⟩
    rfl
  have hfield : ∀ f : MatchField, f.toJson.legible = true := by
    rintro (port | mac | mac) <;> rfl
  simp [toJson, treatmentToJson, selectorToJson, Json.legible, Json.legibleFields, Json.nat,
    Json.legibleItems_iff, hinstruction, hfield]

end FlowDescriptor

/-- The document that hands over flow rules. -/
def flowsDocument (rules : List FlowDescriptor) : Json :=
  .object [("flows", .array (rules.map FlowDescriptor.toJson))]

theorem readFlows?_carry (p : Passage) (rules : List FlowDescriptor) :
    readFlows? (p.carry (flowsDocument rules))
      = some (rules.map fun d => d.toJson.canonical) := by
  have hbears : Bears p (p.carry (flowsDocument rules)) _ := Json.bears_object p (by simp)
  obtain ⟨r, hr, hlookup⟩ := hbears.exists_record ["flows"]
  have hlist : (p.carry (.array (rules.map FlowDescriptor.toJson))).list? Json.any?
      = some (rules.map fun d => d.toJson.canonical) := by
    rw [Json.list?_any?_carry p (by simp [FlowDescriptor.legible_toJson]), List.map_map]
    rfl
  have hflows : r.required "flows" (Json.list? Json.any?)
      = some (rules.map fun d => d.toJson.canonical) := by
    rw [Json.Record.required, hlookup]
    exact hlist
  simp [readFlows?, hr, hflows]

theorem FlowRule.ofJsonList_canonical (rules : List FlowDescriptor) :
    ofJsonList (rules.map fun d => d.toJson.canonical)
      = rules.filterMap fun d => d.toRule.toOption := by
  rw [ofJsonList, List.filterMap_map]
  refine List.filterMap_congr fun d _ => ?_
  have hread : FlowDescriptor.read? d.toJson.canonical = some d := FlowDescriptor.reads .asValue d
  simp [hread]

/-! ### All of them -/

/-- **What is written can be read.** Each form that travels between nodes is read back as the value that
was written, whether it is read as it stands or out of a free value; a device that comes out of a free
value has its annotations in order of their names, which is the same table. The elements of edge updates
are free values themselves. A list of flow rules comes to the rules that its descriptors make, in their
order and without those that make none. -/
theorem read_back_of_written :
    (∀ d : DeviceEntry, DeviceEntry.read? d.toJson = some d ∧
      ∃ annotations, DeviceEntry.read? d.toJson.canonical = some { d with annotations }
        ∧ Option.Rel Roster.Same d.annotations annotations) ∧
    (∀ (p : Passage) (l : LinkEntry), LinkEntry.read? (p.carry l.toJson) = some l) ∧
    (∀ (p : Passage) (h : HostEntry), HostEntry.read? (p.carry h.toJson) = some h) ∧
    (∀ (p : Passage) (u : EdgeUpdates),
      (∀ value ∈ u.added ++ u.deleted, value.any? = some value) →
        EdgeUpdates.readDocument? (p.carry u.toDocument) = some u) ∧
    (∀ (p : Passage) (request : ProvisioningRequest),
      ProvisioningRequest.read? (p.carry request.toJson) = some request) ∧
    (∀ (p : Passage) (d : FlowDescriptor), FlowDescriptor.read? (p.carry d.toJson) = some d) ∧
    ∀ (p : Passage) (rules : List FlowDescriptor),
      (readFlows? (p.carry (flowsDocument rules))).map FlowRule.ofJsonList
        = some (rules.filterMap fun d => d.toRule.toOption) := by
  refine ⟨fun d => ⟨?_, ?_⟩, LinkEntry.reads, HostEntry.reads, ?_, ProvisioningRequest.reads,
    FlowDescriptor.reads, ?_⟩
  · have hsame : d.annotations.map Passage.asWritten.arrange = d.annotations := Option.map_id'
    exact (DeviceEntry.read?_carry .asWritten d).trans (by rw [hsame])
  · refine ⟨_, DeviceEntry.read?_carry .asValue d, ?_⟩
    cases d.annotations with
    | none => exact .none
    | some t => exact .some t.same_inOrder
  · intro p u hfree
    have hvalue : ∀ value ∈ u.added ++ u.deleted,
        value.legible = true ∧ value.canonical = value := by
      intro value hmem
      have hany := hfree value hmem
      unfold Json.any? at hany
      split at hany
      · next hlegible => exact ⟨hlegible, Option.some.inj hany⟩
      · cases hany
    have hfixed : ∀ values : List Json, (∀ value ∈ values, value ∈ u.added ++ u.deleted) →
        values.map Json.canonical = values := by
      intro values hsub
      exact (List.map_congr_left fun v hv => (hvalue v (hsub v hv)).2).trans (List.map_id _)
    rw [EdgeUpdates.readDocument?_carry p fun value hmem => (hvalue value hmem).1,
      hfixed u.added fun _ => List.mem_append_left _, hfixed u.deleted fun _ => List.mem_append_right _]
  · intro p rules
    rw [readFlows?_carry, Option.map_some, FlowRule.ofJsonList_canonical]

/-- A link between the last ports that there are, as it comes out of a document. -/
def farLink : Json := (LinkEntry.toJson
  { ends := ⟨⟨⟨"of:1"⟩, 18446744073709551615⟩, ⟨⟨"of:2"⟩, 18446744073709551615⟩⟩ }).canonical

theorem read_back_of_written_edgeUpdates :
    farLink.any? = some farLink ∧
      EdgeUpdates.readDocument? (EdgeUpdates.toDocument ⟨[farLink], []⟩) = some ⟨[farLink], []⟩ ∧
      EdgeUpdates.readDocument? (EdgeUpdates.toDocument ⟨[], [farLink]⟩).canonical
        = some ⟨[], [farLink]⟩ := by
  have hfree : farLink.any? = some farLink := Json.any?_canonical (LinkEntry.legible_toJson _)
  have hfrees : ∀ value ∈ [farLink], value.any? = some value := by simpa using hfree
  have hupdates := read_back_of_written.2.2.2.1
  exact ⟨hfree, hupdates .asWritten ⟨[farLink], []⟩ hfrees, hupdates .asValue ⟨[], [farLink]⟩ hfrees⟩

end Multidomain
