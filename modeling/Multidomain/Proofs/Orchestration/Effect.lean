import Multidomain.Proofs.Mapping.LinkBook
import Multidomain.Proofs.Orchestration.Meaning

/-!
# What a report does under the implicit abstraction

A report does one of nine things to a domain, and `Effect` lists them with the conditions under
which they happen: one case for each branch that taking an element up can end in. `effect_hear` says
that there is nothing else, so an invariant of the domain is shown by going through the cases, and
no other proof opens the functions that take elements up.
-/

namespace Multidomain

/-- The virtual device of a child carries the orchestrator's scheme for virtual devices. -/
theorem ChildAddress.orchestratedScheme?_virtualDevice (child : String) :
    (virtualDevice child).orchestratedScheme? = some DeviceId.implicitScheme := by
  unfold virtualDevice
  rw [DeviceId.orchestratedScheme?, DeviceId.scheme?_qualified _ (by decide)]
  rfl

namespace Implicit

open ChildAddress (virtualDevice)

/-- Showing a virtual link: it is detected in both directions, unless one is refused. -/
def shown (t : Topology) (link : Ends) : Topology :=
  (t.heedAll [.link link, .link link.inverted]).1

/-- Hiding a virtual link: it vanishes in both directions, unless one is refused. -/
def hidden (t : Topology) (link : Ends) : Topology :=
  (t.heedAll [.unlink link, .unlink link.inverted]).1

/-- What a child's report can do to a domain: the element that was read, and the domain after it. -/
inductive Effect (child : String) (d : Domain) : Option Element → Domain → Prop where
  /-- The value is no element of its sort. -/
  | unread : Effect child d none d
  /-- The device belongs to the child's virtual device from now on. -/
  | absorbed (entry : DeviceEntry) : Effect child d (some (.device entry))
      { registry := (d.registry.mapDevice entry.id (virtualDevice child)).setOwner
          (virtualDevice child) child
        topology := (d.topology.connectDevice (.switch (virtualDevice child))).1 }
  /-- The new link has an end on a device that belongs nowhere, or stays inside a virtual device. -/
  | ignored (entry : LinkEntry)
      (h : ∀ a b, d.registry.virtual? entry.ends.src.device = some a →
        d.registry.virtual? entry.ends.dst.device = some b → a = b) :
      Effect child d (some (.link entry .added)) d
  /-- The new link joins two virtual devices, but one of them has no port space. The other may have
  given a port by then. -/
  | failed (entry : LinkEntry) {src dst : DeviceId} {fault : TableFault}
      (hsrc : d.registry.virtual? entry.ends.src.device = some src)
      (hdst : d.registry.virtual? entry.ends.dst.device = some dst) (hne : src ≠ dst)
      (hfold : d.registry.foldLink entry.ends = .error fault) :
      Effect child d (some (.link entry .added))
        { d with registry := stateAfter (Registry.foldLinkInPlace entry.ends) d.registry }
  /-- The new link is folded into the virtual link between two virtual devices. -/
  | folded (entry : LinkEntry) {src dst : DeviceId} {registry : Registry} {link : Ends}
      (hsrc : d.registry.virtual? entry.ends.src.device = some src)
      (hdst : d.registry.virtual? entry.ends.dst.device = some dst) (hne : src ≠ dst)
      (hfold : d.registry.foldLink entry.ends = .ok (registry, link)) :
      Effect child d (some (.link entry .added)) ⟨registry, shown d.topology link⟩
  /-- The lost link carries no virtual link. -/
  | unknown (entry : LinkEntry) (h : d.registry.links.carriedBy? entry.ends = none) :
      Effect child d (some (.link entry .removed)) d
  /-- The virtual link that the lost link carries is still carried by another one. -/
  | thinned (entry : LinkEntry) {link : Ends}
      (hcarried : d.registry.links.carriedBy? entry.ends = some link)
      (hup : (d.registry.links.disconnect entry.ends).isUp link = true) :
      Effect child d (some (.link entry .removed))
        ⟨(d.registry.disconnectLink entry.ends).1, d.topology⟩
  /-- Nothing carries the virtual link of the lost link any more. -/
  | withdrawn (entry : LinkEntry) {link : Ends}
      (hcarried : d.registry.links.carriedBy? entry.ends = some link)
      (hdown : (d.registry.links.disconnect entry.ends).isUp link = false) :
      Effect child d (some (.link entry .removed))
        ⟨(d.registry.disconnectLink entry.ends).1, hidden d.topology link⟩
  /-- The host has a bad address, or is at a device that belongs nowhere. -/
  | unattached (entry : HostEntry) : Effect child d (some (.host entry)) d
  /-- The host appears at a port of a virtual device. -/
  | attached (entry : HostEntry) {id : HostId} {registry : Registry} {location : ConnectPoint}
      (hexpose : d.registry.exposePoint entry.location = .ok (registry, location)) :
      Effect child d (some (.host entry))
        { registry := (registry.recordHost ⟨id, entry.location⟩ ⟨id, location⟩).1
          topology := (d.topology.heedAll
            [.host { id, addresses := entry.ips, location }]).1 }

theorem takeUp_of_ok {child : String} {d : Domain} {e : Element} {m : Meaning}
    (h : meaning child d.registry e = .ok m) :
    (d.takeUp .implicit child e).1 = ⟨m.registry, (d.topology.heedAll m.notices).1⟩ := by
  have hmeaning : Abstraction.implicit.meaning child d.registry e = .ok m := h
  rw [Domain.takeUp_of_ok hmeaning]

theorem takeUp_of_error {child : String} {d : Domain} {e : Element} {fault : ElementFault}
    (h : meaning child d.registry e = .error fault) :
    (d.takeUp .implicit child e).1
      = { d with registry := Abstraction.implicit.leftBehind d.registry e } := by
  have hmeaning : Abstraction.implicit.meaning child d.registry e = .error fault := h
  rw [Domain.takeUp_of_error hmeaning]

theorem effect_device (child : String) (d : Domain) (entry : DeviceEntry) :
    Effect child d (some (.device entry)) (d.takeUp .implicit child (.device entry)).1 := by
  have haccepted : (Notice.device (.switch (virtualDevice child))).refusal? = none := by
    simp [Notice.refusal?, Device.switch, ChildAddress.orchestratedScheme?_virtualDevice]
  have htopology : (d.topology.heedAll [.device (.switch (virtualDevice child))]).1 =
      (d.topology.connectDevice (.switch (virtualDevice child))).1 := by
    rw [Topology.heedAll, haccepted]
    rfl
  rw [takeUp_of_ok (m := ⟨_, [.device (.switch (virtualDevice child))]⟩) (by rw [meaning]),
    htopology]
  exact .absorbed entry

theorem effect_linkAdded (child : String) (d : Domain) (entry : LinkEntry) :
    Effect child d (some (.link entry .added)) (d.takeUp .implicit child (.link entry .added)).1 := by
  have hleft : d.registry.virtual? entry.ends.src.device = none
      ∨ d.registry.virtual? entry.ends.dst.device = none →
      Abstraction.implicit.leftBehind d.registry (.link entry .added) = d.registry :=
    Registry.stateAfter_foldLinkInPlace_of_unmapped d.registry entry.ends
  cases hsrc : d.registry.virtual? entry.ends.src.device with
  | none =>
    rw [takeUp_of_error (by simp only [meaning, Registry.virtual, hsrc]; rfl), hleft (.inl hsrc)]
    exact .ignored entry fun a b ha => by simp [hsrc] at ha
  | some src =>
    cases hdst : d.registry.virtual? entry.ends.dst.device with
    | none =>
      rw [takeUp_of_error (by simp only [meaning, Registry.virtual, hsrc, hdst]; rfl),
        hleft (.inr hdst)]
      exact .ignored entry fun a b _ hb => by simp [hdst] at hb
    | some dst =>
      have hmeaning := meaning_added child hsrc hdst
      by_cases hne : src = dst
      · rw [takeUp_of_ok (hmeaning.trans (if_pos hne))]
        refine .ignored entry fun a b ha hb => ?_
        rw [hsrc] at ha
        rw [hdst] at hb
        exact (Option.some.inj ha).symm.trans (hne.trans (Option.some.inj hb))
      · rw [if_neg hne] at hmeaning
        cases hfold : d.registry.foldLink entry.ends with
        | error fault =>
          rw [takeUp_of_error (hmeaning.trans (by rw [hfold]))]
          exact .failed entry hsrc hdst hne hfold
        | ok pair =>
          rw [takeUp_of_ok (hmeaning.trans (by rw [hfold]))]
          exact .folded entry hsrc hdst hne hfold

theorem effect_linkRemoved (child : String) (d : Domain) (entry : LinkEntry) :
    Effect child d (some (.link entry .removed))
      (d.takeUp .implicit child (.link entry .removed)).1 := by
  cases hcarried : d.registry.links.carriedBy? entry.ends with
  | none =>
    have hsame : d.registry.disconnectLink entry.ends = (d.registry, none) := by
      simp [Registry.disconnectLink, LinkBook.disconnect, hcarried]
    rw [takeUp_of_ok (m := ⟨d.registry, []⟩) (by simp only [meaning, hsame])]
    exact .unknown entry hcarried
  | some link =>
    have hdisconnect : d.registry.disconnectLink entry.ends =
        ((d.registry.disconnectLink entry.ends).1, some link) := by
      simp [Registry.disconnectLink, hcarried]
    cases hup : (d.registry.links.disconnect entry.ends).isUp link with
    | true =>
      rw [takeUp_of_ok (m := ⟨(d.registry.disconnectLink entry.ends).1, []⟩) (by
        rw [meaning, hdisconnect]
        exact if_pos hup)]
      exact .thinned entry hcarried hup
    | false =>
      rw [takeUp_of_ok (m := ⟨(d.registry.disconnectLink entry.ends).1,
        [.unlink link, .unlink link.inverted]⟩) (by
        rw [meaning, hdisconnect]
        exact if_neg (by simp [Registry.disconnectLink, hup]))]
      exact .withdrawn entry hcarried hup

theorem effect_host (child : String) (d : Domain) (entry : HostEntry) :
    Effect child d (some (.host entry)) (d.takeUp .implicit child (.host entry)).1 := by
  cases hid : entry.hostId with
  | error fault =>
    rw [takeUp_of_error (by simp only [meaning, hid]; rfl)]
    exact .unattached entry
  | ok id =>
    cases hexpose : d.registry.exposePoint entry.location with
    | error fault =>
      rw [takeUp_of_error (by simp only [meaning, hid, hexpose]; rfl)]
      exact .unattached entry
    | ok pair =>
      rw [takeUp_of_ok (m := ⟨(pair.1.recordHost ⟨id, entry.location⟩ ⟨id, pair.2⟩).1,
        [.host { id, addresses := entry.ips, location := pair.2 }]⟩) (by
        simp only [meaning, hid, hexpose]
        rfl)]
      exact .attached entry hexpose

/-- A report does what the cases say, and nothing else. -/
theorem effect_hear (d : Domain) (r : Report) :
    Effect r.child d r.element? (d.hear .implicit r) := by
  cases helement : r.element? with
  | none =>
    rw [Domain.hear, Domain.takeUpJson_of_no_element helement]
    exact .unread
  | some e =>
    rw [Domain.hear, Domain.takeUpJson_of_element helement]
    match e with
    | .device entry => exact effect_device r.child d entry
    | .link entry .added => exact effect_linkAdded r.child d entry
    | .link entry .removed => exact effect_linkRemoved r.child d entry
    | .host entry => exact effect_host r.child d entry

end Implicit

end Multidomain
