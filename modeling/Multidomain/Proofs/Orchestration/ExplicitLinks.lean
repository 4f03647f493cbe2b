import Multidomain.Proofs.Orchestration.ExplicitNames
import Multidomain.Proofs.Orchestration.VirtualLinks
import Multidomain.Proofs.Topology.Devices
import Multidomain.Proofs.Wire.Document

/-!
# What explicit documents do to a topology

Under the explicit abstraction every device and every end of a link is requalified: it keeps the part
after the colon and gets the orchestrator's scheme. Each link that a document adds is put into the
topology as an active direct link, if a device at one of its ends is known there, and each link that a
document deletes is taken out. So what a run of link entries leaves behind can be said of the set of
ends alone, and `HoldsDirect` says it.
-/

namespace Multidomain

/-! ### Requalified ids -/

namespace DeviceId

/-- The id has exactly one colon, with text on both sides of it. -/
def WellFormed (id : DeviceId) : Prop := ∃ scheme part, id.split = .ok (scheme, part)

instance (id : DeviceId) : Decidable id.WellFormed :=
  match h : id.split with
  | .ok (scheme, part) => .isTrue ⟨scheme, part, h⟩
  | .error _ => .isFalse fun ⟨_, _, hok⟩ => nomatch h.symm.trans hok

/-- The local part of the id under the scheme of devices that are taken over one by one. -/
def requalified (id : DeviceId) : DeviceId := qualified explicitScheme id.localPart

theorem toExplicit_of_wellFormed {id : DeviceId} (h : id.WellFormed) :
    id.toExplicit = .ok id.requalified := by
  obtain ⟨scheme, part, hsplit⟩ := h
  have hpart : id.localPart = part := by
    unfold split at hsplit
    split at hsplit
    · next hcut =>
      split at hsplit
      · cases hsplit
      · cases hsplit
        rw [localPart, hcut]
        rfl
    · cases hsplit
  rw [toExplicit, hsplit, requalified, hpart]
  rfl

theorem eq_requalified_of_toExplicit {id explicit : DeviceId} (h : id.toExplicit = .ok explicit) :
    explicit = id.requalified := by
  have hwell : id.WellFormed := by
    cases hsplit : id.split with
    | ok parts => exact ⟨parts.1, parts.2, hsplit⟩
    | error fault => simp [toExplicit, hsplit, Except.map] at h
  exact Except.ok.inj (h.symm.trans (toExplicit_of_wellFormed hwell))

theorem localPart_eq_of_requalified_eq {a b : DeviceId} (h : a.requalified = b.requalified) :
    a.localPart = b.localPart :=
  (String.append_right_inj _).1 (congrArg text h)

end DeviceId

namespace Ends

def requalified (e : Ends) : Ends where
  src := { e.src with device := e.src.device.requalified }
  dst := { e.dst with device := e.dst.device.requalified }

/-- Both ends are on devices with well-formed ids. -/
def WellFormed (e : Ends) : Prop := e.src.device.WellFormed ∧ e.dst.device.WellFormed

theorem explicit_of_wellFormed {e : Ends} (h : e.WellFormed) :
    Explicit.ends e = .ok e.requalified := by
  obtain ⟨hsrc, hdst⟩ := h
  rw [Explicit.ends, Explicit.point, Explicit.point, DeviceId.toExplicit_of_wellFormed hsrc,
    DeviceId.toExplicit_of_wellFormed hdst]
  rfl

theorem sameScheme_requalified {e : Ends} (h : e.WellFormed) : e.requalified.sameScheme = true := by
  obtain ⟨hsrc, hdst⟩ := h
  have hsrc' := Explicit.orchestratedScheme?_of_toExplicit (DeviceId.toExplicit_of_wellFormed hsrc)
  have hdst' := Explicit.orchestratedScheme?_of_toExplicit (DeviceId.toExplicit_of_wellFormed hdst)
  simp [sameScheme, requalified, hsrc', hdst']

end Ends

/-! ### Topologies of direct links -/

namespace Topology

/-- The links of the topology are the active direct links between ends of a kind. -/
def HoldsDirect (t : Topology) (S : Ends → Prop) : Prop :=
  ∀ l, l ∈ t.links.items ↔ l = .direct l.ends ∧ S l.ends

variable {t : Topology} {S : Ends → Prop}

theorem HoldsDirect.congr {S' : Ends → Prop} (h : t.HoldsDirect S) (hS : ∀ e, S e ↔ S' e) :
    t.HoldsDirect S' := fun l => (h l).trans (and_congr_right fun _ => hS l.ends)

theorem HoldsDirect.detect (h : t.HoldsDirect S) {e : Ends} (hknown : t.KnowsEnd e) :
    (t.detectLink (.direct e)).1.HoldsDirect fun e' => S e' ∨ e' = e := by
  intro l
  have hends : (Link.direct e).ends = e := rfl
  have htaken : ¬ (!t.knows (Link.direct e).src.device && !t.knows (Link.direct e).dst.device)
      = true := by
    obtain hsrc | hdst := hknown
    · simp [Link.src, hends, hsrc]
    · simp [Link.dst, hends, hdst]
  rw [detectLink, if_neg htaken, hends]
  by_cases hthere : t.links.contains e = true
  · obtain ⟨k, hk⟩ := Option.isSome_iff_exists.1 hthere
    obtain rfl : k.ends = e := Roster.key_of_find? hk
    have hS : S k.ends := ((h k).1 (Roster.mem_of_find? hk)).2
    rw [if_pos hthere, h l]
    refine and_congr_right fun _ => ⟨.inl, ?_⟩
    rintro (hl | hl)
    · exact hl
    · exact hl ▸ hS
  · have hfree : ∀ k ∈ t.links.items, e ≠ k.ends := by
      rintro k hk rfl
      exact hthere (Roster.contains_iff.2 (List.mem_map_of_mem hk))
    rw [if_neg hthere, Roster.mem_put, hends]
    constructor
    · rintro (rfl | ⟨hl, -⟩)
      · exact ⟨rfl, .inr rfl⟩
      · exact ((h l).1 hl).imp_right .inl
    · rintro ⟨hl, hS | rfl⟩
      · have hmem := (h l).2 ⟨hl, hS⟩
        exact .inr ⟨hmem, hfree l hmem⟩
      · exact .inl hl

theorem HoldsDirect.lose (h : t.HoldsDirect S) (e : Ends) :
    (t.loseLink e).1.HoldsDirect fun e' => S e' ∧ e' ≠ e := by
  intro l
  rw [Roster.mem_items_iff, find?_loseLink]
  by_cases he : l.ends = e
  · simp [he]
  · rw [if_neg he, ← Roster.mem_items_iff, h l]
    simp [he]

end Topology

/-! ### Reports of a child -/

namespace Explicit

variable {d : Domain} {child : String}

/-- The report of a link entry that has come out of a text. -/
def linkReport (child : String) (change : Change) (entry : LinkEntry) : Report :=
  ⟨child, .link, change, entry.toJson.canonical⟩

theorem element?_linkReport (child : String) (change : Change) (entry : LinkEntry) :
    (linkReport child change entry).element? = some (.link entry change) := by
  simp [Report.element?, linkReport, Element.read?, LinkEntry.read?_canonical]

/-- What a link entry announces. -/
def linkNotice : Change → Ends → Notice
  | .added => .link
  | .removed => .unlink

theorem topology_hear_link (d : Domain) (child : String) (change : Change) {entry : LinkEntry}
    (h : entry.ends.WellFormed) :
    (d.hear .explicit (linkReport child change entry)).topology
      = (d.topology.heed (linkNotice change entry.ends.requalified)).1 := by
  have hmeaning : Abstraction.explicit.meaning child d.registry (.link entry change)
      = .ok ⟨d.registry, [linkNotice change entry.ends.requalified]⟩ := by
    cases change <;>
      · simp only [Abstraction.meaning, meaning, Ends.explicit_of_wellFormed h]
        rfl
  have haccepted : (linkNotice change entry.ends.requalified).refusal? = none := by
    cases change <;> simp [linkNotice, Notice.refusal?, Ends.sameScheme_requalified h]
  rw [Domain.hear, Domain.takeUpJson_of_element (element?_linkReport child change entry)]
  refine (congrArg (fun taken => taken.1.topology) (Domain.takeUp_of_ok hmeaning)).trans ?_
  simp only [Topology.heedAll, haccepted]

theorem devices_heed_linkNotice (t : Topology) (change : Change) (e : Ends) :
    (t.heed (linkNotice change e)).1.devices = t.devices := by
  cases change with
  | added => exact Topology.devices_detectLink t (.direct e)
  | removed => exact Topology.devices_loseLink t e

theorem devices_hearAll_links (d : Domain) (child : String) (change : Change)
    {entries : List LinkEntry} (h : ∀ entry ∈ entries, entry.ends.WellFormed) :
    (d.hearAll .explicit (entries.map (linkReport child change))).topology.devices
      = d.topology.devices := by
  induction entries generalizing d with
  | nil => rfl
  | cons entry rest ih =>
    rw [List.forall_mem_cons] at h
    obtain ⟨hentry, hrest⟩ := h
    refine (ih (d.hear .explicit (linkReport child change entry)) hrest).trans ?_
    rw [topology_hear_link d child change hentry]
    exact devices_heed_linkNotice d.topology change entry.ends.requalified

theorem holdsDirect_hearAll_added {d : Domain} {S : Ends → Prop} (child : String)
    {entries : List LinkEntry} (h : d.topology.HoldsDirect S)
    (hentries : ∀ entry ∈ entries, entry.ends.WellFormed
      ∧ d.topology.KnowsEnd entry.ends.requalified) :
    (d.hearAll .explicit (entries.map (linkReport child .added))).topology.HoldsDirect fun e =>
      S e ∨ ∃ entry ∈ entries, e = entry.ends.requalified := by
  induction entries generalizing d S with
  | nil => exact h.congr fun e => by simp
  | cons entry rest ih =>
    rw [List.forall_mem_cons] at hentries
    obtain ⟨⟨hwell, hknown⟩, hrest⟩ := hentries
    have htopology := topology_hear_link d child .added hwell
    have hfirst := h.detect hknown
    refine (ih (d := d.hear .explicit (linkReport child .added entry)) (htopology ▸ hfirst) ?_).congr
      fun e => by simp [or_assoc]
    refine fun other hother => (hrest other hother).imp_right fun hk => ?_
    rw [htopology]
    exact hk.mono fun device hdevice =>
      (Topology.knows_of_devices (Topology.devices_detectLink _ _) device).trans hdevice

theorem holdsDirect_hearAll_removed {d : Domain} {S : Ends → Prop} (child : String)
    {entries : List LinkEntry} (h : d.topology.HoldsDirect S)
    (hentries : ∀ entry ∈ entries, entry.ends.WellFormed) :
    (d.hearAll .explicit (entries.map (linkReport child .removed))).topology.HoldsDirect fun e =>
      S e ∧ ∀ entry ∈ entries, e ≠ entry.ends.requalified := by
  induction entries generalizing d S with
  | nil => exact h.congr fun e => by simp
  | cons entry rest ih =>
    rw [List.forall_mem_cons] at hentries
    obtain ⟨hwell, hrest⟩ := hentries
    have htopology := topology_hear_link d child .removed hwell
    have hfirst := h.lose entry.ends.requalified
    exact (ih (d := d.hear .explicit (linkReport child .removed entry)) (htopology ▸ hfirst)
      hrest).congr fun e => by simp [and_assoc]

/-- Links added and deleted leave behind the links that come out when the ends are counted. -/
theorem holdsDirect_hearAll_updates {d : Domain} (child : String) {held now : List Ends}
    {added deleted : List LinkEntry}
    (h : d.topology.HoldsDirect (· ∈ held.map Ends.requalified))
    (hadded : ∀ entry ∈ added, entry.ends.WellFormed
      ∧ d.topology.KnowsEnd entry.ends.requalified)
    (hdeleted : ∀ entry ∈ deleted, entry.ends.WellFormed)
    (hnow : ∀ e, e ∈ now.map Ends.requalified
      ↔ (e ∈ held.map Ends.requalified ∨ e ∈ (added.map LinkEntry.ends).map Ends.requalified)
        ∧ e ∉ (deleted.map LinkEntry.ends).map Ends.requalified) :
    (d.hearAll .explicit (added.map (linkReport child .added)
      ++ deleted.map (linkReport child .removed))).topology.HoldsDirect
        (· ∈ now.map Ends.requalified) := by
  rw [Domain.hearAll_append]
  refine (holdsDirect_hearAll_removed child (holdsDirect_hearAll_added child h hadded)
    hdeleted).congr fun e => ?_
  rw [hnow e]
  simp only [List.mem_map, exists_exists_and_eq_and, not_exists, not_and, eq_comm (a := e), ne_eq]

/-- The report of a device entry that has come out of a text. -/
def deviceReport (child : String) (entry : DeviceEntry) : Report :=
  ⟨child, .device, .added, entry.toJson.canonical⟩

theorem topology_hear_device (d : Domain) (child : String) {entry : DeviceEntry}
    (h : entry.id.WellFormed) :
    ∃ device : Device, device.id = entry.id.requalified
      ∧ (d.hear .explicit (deviceReport child entry)).topology
        = (d.topology.connectDevice device).1 := by
  obtain ⟨annotations, hread⟩ := DeviceEntry.exists_read?_canonical entry
  have helement : (deviceReport child entry).element? = some (.device { entry with annotations }) := by
    simp [Report.element?, deviceReport, Element.read?, hread]
  have hexplicit := DeviceId.toExplicit_of_wellFormed h
  obtain ⟨device, hid, hmeaning⟩ : ∃ device : Device, device.id = entry.id.requalified
      ∧ Abstraction.explicit.meaning child d.registry (.device { entry with annotations })
        = .ok ⟨(d.registry.setAlias entry.id.requalified entry.id).setOwner entry.id.requalified
            child, [.device device]⟩ := by
    refine ⟨{ ({ entry with annotations } : DeviceEntry).toDevice with
      id := entry.id.requalified }, rfl, ?_⟩
    simp only [Abstraction.meaning, meaning, hexplicit]
    rfl
  have haccepted : (Notice.device device).refusal? = none := by
    simp [Notice.refusal?, hid, orchestratedScheme?_of_toExplicit hexplicit]
  refine ⟨device, hid, ?_⟩
  rw [Domain.hear, Domain.takeUpJson_of_element helement]
  refine (congrArg (fun taken => taken.1.topology) (Domain.takeUp_of_ok hmeaning)).trans ?_
  simp only [Topology.heedAll, haccepted]
  rfl

theorem hearAll_devices (d : Domain) (child : String) {entries : List DeviceEntry}
    (h : ∀ entry ∈ entries, entry.id.WellFormed) :
    let d' := d.hearAll .explicit (entries.map (deviceReport child))
    d'.topology.links = d.topology.links
      ∧ ∀ id, (d.topology.knows id = true ∨ ∃ entry ∈ entries, id = entry.id.requalified) →
        d'.topology.knows id = true := by
  induction entries generalizing d with
  | nil => exact ⟨rfl, fun id hid => by simpa using hid⟩
  | cons entry rest ih =>
    rw [List.forall_mem_cons] at h
    obtain ⟨hentry, hrest⟩ := h
    obtain ⟨device, hid, htopology⟩ := topology_hear_device d child hentry
    obtain ⟨hlinks, hknows⟩ := ih (d.hear .explicit (deviceReport child entry)) hrest
    constructor
    · refine hlinks.trans ?_
      rw [htopology]
      exact Topology.links_connectDevice d.topology device
    · intro id hknown
      apply hknows id
      rw [htopology, Topology.knows_connectDevice, hid]
      simp only [List.mem_cons, exists_eq_or_imp] at hknown
      obtain hknown | rfl | hknown := hknown
      · simp [hknown]
      · simp
      · exact .inr hknown

end Explicit

/-! ### Documents of a child -/

namespace Domain

/-- Take up the document that a value denotes; a value that denotes none is passed over. -/
def receive (mode : Abstraction) (child : String) (d : Domain) (value : Json) : Domain :=
  match value.any?.map TopologyDocument.ofJson with
  | some (.ok document) => (d.apply mode child document).1
  | _ => d

/-- A text with this value has the same effect. -/
theorem receive_of_parse {mode : Abstraction} {child : String} {d : Domain} {value : Json}
    {bytes : List UInt8} (h : Json.parse? bytes = some value) :
    d.receive mode child value
      = match d.applyBytes mode child bytes with
        | .ok (d', _, _) => d'
        | .error _ => d := by
  rw [receive, applyBytes_eq, TopologyDocument.parse, h, Option.bind_some]
  cases value.any? with
  | none => rfl
  | some read =>
    rw [Option.map_some]
    dsimp only
    cases TopologyDocument.ofJson read <;> rfl

theorem receive_toJson {mode : Abstraction} {child : String} {d : Domain}
    {document : TopologyDocument} (h : ∀ value ∈ document.elements, value.legible = true) :
    d.receive mode child document.toJson
      = d.hearAll mode (Letter.reports ⟨child, document.canonical⟩) := by
  have hany : document.toJson.any? = some document.toJson.canonical := by
    rw [Json.any?, if_pos (TopologyDocument.legible_toJson h)]
  rw [receive, hany, Option.map_some, TopologyDocument.ofJson_canonical h]
  exact apply_fst d ⟨child, document.canonical⟩

variable (d : Domain) (child : String)

theorem receive_devices (entries : List DeviceEntry) :
    d.receive .explicit child (TopologyDocument.devices (entries.map DeviceEntry.toJson)).toJson
      = d.hearAll .explicit (entries.map (Explicit.deviceReport child)) := by
  rw [receive_toJson, Letter.reports, TopologyDocument.canonical]
  · simp only [List.map_map]
    rfl
  · simp [TopologyDocument.elements, DeviceEntry.legible_toJson]

theorem receive_links (entries : List LinkEntry) :
    d.receive .explicit child (TopologyDocument.links (entries.map LinkEntry.toJson)).toJson
      = d.hearAll .explicit (entries.map (Explicit.linkReport child .added)) := by
  rw [receive_toJson, Letter.reports, TopologyDocument.canonical]
  · simp only [List.map_map]
    rfl
  · simp [TopologyDocument.elements, LinkEntry.legible_toJson]

theorem receive_updates (added deleted : List LinkEntry) :
    d.receive .explicit child (TopologyDocument.edgeUpdates
        ⟨added.map LinkEntry.toJson, deleted.map LinkEntry.toJson⟩).toJson
      = d.hearAll .explicit (added.map (Explicit.linkReport child .added)
          ++ deleted.map (Explicit.linkReport child .removed)) := by
  rw [receive_toJson, Letter.reports, TopologyDocument.canonical]
  · simp only [List.map_map]
    rfl
  · simp [TopologyDocument.elements, or_imp, forall_and, LinkEntry.legible_toJson]

end Domain

end Multidomain
