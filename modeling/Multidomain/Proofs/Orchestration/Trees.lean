import Multidomain.Proofs.Orchestration.WellFormedIds
import Multidomain.Proofs.Rest.Effect
import Multidomain.Proofs.Wire.RoundTrip

/-!
# Trees of nodes

A node can be the child of another one: what it shows is a set of topology documents, and under the
explicit abstraction a parent takes each of their elements up, whatever the parent has heard before. An
element can only be skipped for what it is made of. The ids in it are ids that the node gave, even at the
ends of links to devices that the node does not know, and these can be requalified; everything else in
it is read back as it was written.
-/

namespace Multidomain

/-! ### What a parent takes up -/

/-- Elements that are no fault to any domain are all applied. -/
theorem Domain.stats_takeUpAll {mode : Abstraction} {child : String} {kind : ElementKind}
    {change : Change} {values : List Json}
    (h : ∀ value ∈ values, ∀ d : Domain, (d.takeUpJson mode child kind change value).2.2 = none)
    (d : Domain) : (takeUpAll mode child kind change values d).2.2 = ⟨values.length, 0⟩ := by
  induction values generalizing d with
  | nil => rfl
  | cons value rest ih =>
    rw [List.forall_mem_cons] at h
    simp [takeUpAll, h.1 d, ih h.2]

namespace Explicit

variable {kind : ElementKind} {change : Change} {value : Json} (d : Domain) (child : String)

/-- Under the explicit abstraction an element with a meaning is no fault. -/
theorem takeUpJson_of_meaning {e : Element} (hread : Element.read? kind change value = some e)
    (hmeaning : ∃ m, meaning child d.registry e = .ok m) :
    (d.takeUpJson .explicit child kind change value).2.2 = none := by
  obtain ⟨m, hm⟩ := hmeaning
  have haccepted := fun notice hnotice => (under_of_meaning hm notice hnotice).refusal?
  have hmeaning : Abstraction.explicit.meaning child d.registry e = .ok m := hm
  rw [Domain.takeUpJson, hread]
  simp only [Domain.takeUp_of_ok hmeaning, (Topology.heedAll_of_accepted haccepted).2, Option.map_none]

theorem takes_device {entry : DeviceEntry} (h : entry.id.WellFormed) :
    (d.takeUpJson .explicit child .device .added entry.toJson.canonical).2.2 = none := by
  obtain ⟨annotations, hread⟩ := DeviceEntry.exists_read?_canonical entry
  have helement : Element.read? .device .added entry.toJson.canonical
      = some (.device { entry with annotations }) := congrArg (Option.map Element.device) hread
  refine takeUpJson_of_meaning d child helement ?_
  simp only [meaning, DeviceId.toExplicit_of_wellFormed h]
  exact ⟨_, rfl⟩

theorem takes_link (change : Change) {entry : LinkEntry} (h : entry.ends.WellFormed) :
    (d.takeUpJson .explicit child .link change entry.toJson.canonical).2.2 = none := by
  have hread : Element.read? .link change entry.toJson.canonical = some (.link entry change) :=
    congrArg (Option.map fun entry => Element.link entry change) (LinkEntry.reads .asValue entry)
  refine takeUpJson_of_meaning d child hread ?_
  cases change <;>
    · simp only [meaning, Ends.explicit_of_wellFormed h]
      exact ⟨_, rfl⟩

theorem takes_host {host : Host} (h : host.location.device.WellFormed) :
    (d.takeUpJson .explicit child .host .added (HostEntry.ofHost host).toJson.canonical).2.2
      = none := by
  have hread : Element.read? .host .added (HostEntry.ofHost host).toJson.canonical
      = some (.host (.ofHost host)) :=
    congrArg (Option.map Element.host) (HostEntry.reads .asValue (.ofHost host))
  have hlocation : point (HostEntry.ofHost host).location
      = .ok { host.location with device := host.location.device.requalified } := by
    simp only [point, HostEntry.ofHost, DeviceId.toExplicit_of_wellFormed h]
    rfl
  refine takeUpJson_of_meaning d child hread ?_
  simp only [meaning, HostEntry.hostId_ofHost, hlocation]
  exact ⟨_, rfl⟩

end Explicit

/-! ### The documents of a node -/

namespace Overview

/-- The document that a route shows. -/
def document? (o : Overview) : Route → Option TopologyDocument
  | .devices view => some (.devices ((o.deviceEntries view).map DeviceEntry.toJson))
  | .links view => some (.links ((o.readLinks view).1.map LinkEntry.toJson))
  | .hosts => some (.hosts (o.hostEntries.map HostEntry.toJson))
  | .edgeUpdates view => some (.edgeUpdates (o.takeEdgeUpdates view).1)
  | .provisioning | .flows | .children | .abstraction => none

variable {o : Overview} {route : Route} {document : TopologyDocument}

theorem exists_document? (h : route.method = .get) : ∃ document, o.document? route = some document := by
  cases route with
  | devices | links | hosts | edgeUpdates => exact ⟨_, rfl⟩
  | provisioning | flows | children | abstraction => cases h

theorem plain_of_document? (h : o.document? route = some document) :
    ∀ value ∈ document.elements, ∀ levels, value.plain (levels + 2) = true := by
  cases route with
  | provisioning | flows | children | abstraction => cases h
  | devices view =>
    cases h
    exact List.forall_mem_map.2 fun entry _ levels => entry.plain_toJson
  | links view =>
    cases h
    exact List.forall_mem_map.2 fun entry _ levels => entry.plain_toJson
  | hosts =>
    cases h
    exact List.forall_mem_map.2 fun entry _ levels => entry.plain_toJson
  | edgeUpdates view =>
    cases h
    rw [TopologyDocument.elements, List.forall_mem_append]
    exact ⟨List.forall_mem_map.2 fun entry _ levels => entry.plain_toJson,
      List.forall_mem_map.2 fun entry _ levels => entry.plain_toJson⟩

theorem Names.deviceEntry (h : o.Names DeviceId.WellFormed) (view : DeviceView) :
    ∀ entry ∈ o.deviceEntries view, entry.id.WellFormed := by
  intro entry hentry
  obtain ⟨d, hd, rfl⟩ := List.mem_map.1 hentry
  have hwell := h.device d (List.mem_mergeSort.1 hd)
  cases view <;> exact hwell

theorem wellFormed_renderLinks {links : List Link} (h : ∀ l ∈ links, l.ends.WellFormed)
    (view : LinkView) : ∀ entry ∈ renderLinks view links, entry.ends.WellFormed := by
  intro entry hentry
  obtain ⟨l, hl, rfl⟩ := List.mem_map.1 hentry
  have hwell := h l (List.mem_mergeSort.1 hl)
  cases view <;> exact hwell

/-- A parent applies every element of what a node shows, as long as all ids in it are well formed. -/
theorem Names.stats_apply (h : o.Names DeviceId.WellFormed)
    (hdocument : o.document? route = some document) (parent : Domain) (child : String) :
    (parent.apply .explicit child document.canonical).2.2 = ⟨document.elements.length, 0⟩ := by
  have hlinks : ∀ (change : Change) (view : LinkView) {links : List Link},
      (∀ l ∈ links, l.ends.WellFormed) →
      ∀ value ∈ ((renderLinks view links).map LinkEntry.toJson).map Json.canonical, ∀ d : Domain,
        (d.takeUpJson .explicit child .link change value).2.2 = none := by
    intro change view links hwell
    refine List.forall_mem_map.2 (List.forall_mem_map.2 fun entry hentry d => ?_)
    exact Explicit.takes_link d child change (wellFormed_renderLinks hwell view entry hentry)
  cases route with
  | provisioning | flows | children | abstraction => cases hdocument
  | devices view =>
    cases hdocument
    refine (Domain.stats_takeUpAll (List.forall_mem_map.2 (List.forall_mem_map.2
      fun entry hentry d => ?_)) parent).trans (by simp [TopologyDocument.elements])
    exact Explicit.takes_device d child (h.deviceEntry view entry hentry)
  | links view =>
    cases hdocument
    exact (Domain.stats_takeUpAll (hlinks .added view (h.linksOf view)) parent).trans
      (by simp [TopologyDocument.elements, readLinks])
  | hosts =>
    cases hdocument
    refine (Domain.stats_takeUpAll (List.forall_mem_map.2 (List.forall_mem_map.2
      fun entry hentry d => ?_)) parent).trans (by simp [TopologyDocument.elements])
    obtain ⟨host, hhost, rfl⟩ := List.mem_map.1 hentry
    exact Explicit.takes_host d child (h.host host (List.mem_mergeSort.1 hhost))
  | edgeUpdates view =>
    cases hdocument
    have hchanges := h.changesOf view
    simp only [takeEdgeUpdates, TopologyDocument.canonical, Domain.apply,
      Domain.stats_takeUpAll (hlinks .added view hchanges.added),
      Domain.stats_takeUpAll (hlinks .removed view hchanges.deleted)]
    simp [TopologyDocument.elements]

end Overview

/-! ### Nodes -/

/-- What can happen to a node: it is told something of a child, under an abstraction, or it is asked. -/
inductive NodeStep where
  | told (mode : Abstraction) (letter : Letter)
  | asked (q : RestRequest)

theorem Domain.Names.setFlows {P : DeviceId → Prop} {d : Domain} (h : d.Names P)
    (flows : FlowTables) : Domain.Names P { d with topology := { d.topology with flows } } where
  consistent := by
    refine ⟨h.consistent.coherent.of_same_links rfl rfl (fun _ => id) (fun _ => id) ?_,
      h.consistent.aliased⟩
    intro device virtual hvirtual
    have hready := h.consistent.coherent.ready_of_virtual hvirtual
    exact ⟨hready.isOpen, hready.known, hready.scheme⟩
  topology := ⟨h.topology.device, h.topology.attached.link, h.topology.attached.host⟩

namespace Session

/-- The session after a document of a child. -/
def told (s : Session) (mode : Abstraction) (l : Letter) : Session :=
  s.advanceTo (s.domain.apply mode l.child l.document).1
    (s.domain.apply mode l.child l.document).2.1

def step (s : Session) : NodeStep → Session
  | .told mode letter => s.told mode letter
  | .asked q => (s.serve q).session

def stepAll (s : Session) (steps : List NodeStep) : Session := steps.foldl step s

variable {s : Session} {P : DeviceId → Prop}

/-- What comes in as bytes is told under the abstraction of the session. -/
theorem hear_of_parse {bytes : List UInt8} {document : TopologyDocument}
    (h : TopologyDocument.parse bytes = .ok document) (child : String) :
    (s.hear child bytes).map Prod.fst = .ok (s.told s.abstraction ⟨child, document⟩) := by
  rw [hear, Domain.applyBytes_eq, h]
  rfl

theorem answer_respond {route : Route} {document : TopologyDocument}
    (h : s.overview.document? route = some document) (body? : Option Json) :
    (s.respond route body?).answer = ⟨.ok, some document.toJson⟩ := by
  cases route with
  | devices | links | hosts | edgeUpdates =>
    cases h
    rfl
  | provisioning | flows | children | abstraction => cases h

/-- All devices that the session shows are of a kind. -/
structure Names (P : DeviceId → Prop) (s : Session) : Prop where
  domain : s.domain.Names P
  overview : s.overview.Names P

theorem names_ofConfig (config : Config) : (ofConfig config).Names P :=
  ⟨Domain.names_empty, Overview.names_empty⟩

theorem Names.told (h : s.Names P) {mode : Abstraction} {l : Letter}
    (hnew : ∀ id, mode.Gives l.child id → P id) : (s.told mode l).Names P := by
  obtain ⟨hdomain, hevents⟩ := h.domain.apply hnew l.document
  unfold Session.told advanceTo observe
  split
  · exact ⟨hdomain, h.overview.observeAll hevents⟩
  · exact ⟨hdomain, h.overview⟩

theorem Names.serve (h : s.Names P) (q : RestRequest) : (s.serve q).session.Names P := by
  obtain ⟨-, addresses, hsession, -⟩ | ⟨-, htouched, -⟩ := s.serve_cases q
  · obtain ⟨hdomain, hoverview⟩ := s.addChildren_frame addresses
    rw [hsession]
    exact ⟨hdomain ▸ h.domain, hoverview ▸ h.overview⟩
  · refine ⟨?_, ?_⟩
    · obtain ⟨_, flows, _, heq⟩ := htouched.eq
      rw [heq]
      exact h.domain.setFlows flows
    · obtain hsame | hcleared := htouched.overview
      · exact hsame ▸ h.overview
      · exact hcleared ▸ h.overview.clearChanges

/-- All ids that a node shows are well formed, if each child has an address. -/
theorem names_stepAll (config : Config) {steps : List NodeStep}
    (h : ∀ mode letter, .told mode letter ∈ steps → letter.child ≠ "") :
    ((ofConfig config).stepAll steps).Names DeviceId.WellFormed := by
  -- From the last step back: what holds of the session before it is kept by each kind of step.
  induction steps using List.reverseRecOn with
  | nil => exact names_ofConfig config
  | append_singleton steps step ih =>
    have hbefore := ih fun mode letter hmem => h mode letter (List.mem_append_left _ hmem)
    rw [stepAll, List.foldl_append]
    cases step with
    | told mode letter =>
      have hchild := h mode letter (by simp)
      exact hbefore.told fun _ hid => hid.wellFormed hchild
    | asked q => exact hbefore.serve q

/-- **A parent skips nothing of what a node shows.** Whatever a node has been told of its children, under
whichever abstractions, and whatever it has been asked meanwhile: each document that it serves is taken
up by a parent under the explicit abstraction without fault, in whatever state the parent is. -/
theorem parent_skips_nothing (config : Config) (steps : List NodeStep)
    (hchildren : ∀ mode letter, .told mode letter ∈ steps → letter.child ≠ "")
    {target : String} {route : Route} (hroute : Route.ofTarget? target = some route)
    (hmethod : route.method = .get) (body : List UInt8) (parent : Domain) (child : String) :
    let node := (ofConfig config).stepAll steps
    ∃ document, node.overview.document? route = some document ∧
      (node.serve ⟨.get, target, body⟩).answer = ⟨.ok, some document.toJson⟩ ∧
      ∃ parent' events, parent.applyBytes .explicit child (Json.bytesOf document.toJson.render)
        = .ok (parent', events, ⟨document.elements.length, 0⟩) := by
  intro node
  have hnames : node.Names DeviceId.WellFormed := names_stepAll config hchildren
  obtain ⟨document, hdocument⟩ := node.overview.exists_document? hmethod
  refine ⟨document, hdocument, ?_, ?_⟩
  · obtain ⟨hrefused, -⟩ | ⟨other, hother, -, hserve⟩ := node.serve_of_route (.inl rfl) target body
    · exact absurd (Route.exists_ofTarget?_iff.1 ⟨route, hroute, hmethod⟩) hrefused
    · obtain rfl : other = route := Option.some.inj (hother.symm.trans hroute)
      rw [hserve, answer_respond hdocument]
  · have hparse := TopologyDocument.parse_render (Overview.plain_of_document? hdocument)
    have hstats := hnames.overview.stats_apply hdocument parent child
    rw [Domain.applyBytes_eq, hparse]
    exact ⟨_, _, congrArg Except.ok (by rw [← hstats])⟩

/-- A node that stands for one child and takes over the devices of another, one of which has a link to a
device that is not known. -/
def twoSorts : List NodeStep :=
  [.told .implicit ⟨":80", .devices [.object [("id", .string "of:1")]]⟩,
    .told .explicit ⟨"10.0.0.2", .devices [.object [("id", .string "of:1")]]⟩,
    .asked ⟨.get, "/edgeUpdates", []⟩,
    .told .explicit ⟨"10.0.0.2", .links [(LinkEntry.summary
      (.direct ⟨⟨⟨"of:1"⟩, 1⟩, ⟨⟨"of:9"⟩, 18446744073709551615⟩⟩)).toJson]⟩]

theorem parent_skips_nothing_twoSorts :
    ∃ document, ((ofConfig {}).stepAll twoSorts).overview.document? (.edgeUpdates .implicit)
        = some document ∧ document.elements.length = 1 ∧
      ∃ parent events, Domain.empty.applyBytes .explicit "10.0.0.9"
        (Json.bytesOf document.toJson.render) = .ok (parent, events, ⟨1, 0⟩) := by
  have hchildren : ∀ mode letter, .told mode letter ∈ twoSorts → letter.child ≠ "" := by
    intro mode letter hmem
    simp only [twoSorts, List.mem_cons, NodeStep.told.injEq, reduceCtorEq, List.not_mem_nil,
      or_false, false_or] at hmem
    rcases hmem with ⟨-, rfl⟩ | ⟨-, rfl⟩ | ⟨-, rfl⟩ <;> decide
  obtain ⟨document, hdocument, -, hparent⟩ := parent_skips_nothing {} twoSorts hchildren
    (show Route.ofTarget? "/edgeUpdates/implicit/" = some (.edgeUpdates .implicit) by decide +kernel)
    rfl [] .empty "10.0.0.9"
  have hlength : (((ofConfig {}).stepAll twoSorts).overview.document? (.edgeUpdates .implicit)).map
      (fun document => document.elements.length) = some 1 := by decide +kernel
  rw [hdocument, Option.map_some, Option.some.injEq] at hlength
  rw [hlength] at hparent
  exact ⟨document, hdocument, hlength, hparent⟩

end Session

end Multidomain
