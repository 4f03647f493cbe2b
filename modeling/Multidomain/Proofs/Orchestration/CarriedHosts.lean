import Multidomain.Proofs.Orchestration.ExplicitRuns
import Multidomain.Proofs.Topology.Hosts
import Multidomain.Proofs.Wire.RoundTrip

/-!
# Hosts carried up a tree

A host travels to the parent of its node as texts: the octets of its Ethernet address, the number of its
VLAN, its internet addresses. Nothing is lost in that. A parent under the explicit abstraction has
exactly the host that it was shown, at the same port of the requalified device, as long as it knows that
device and can requalify it. What it is shown is another matter: the overview of a node has a host as it
was last told of, so a host that got other addresses where it is arrives with those that it had before.
-/

namespace Multidomain

/-- The host as a parent has it, at the same port of the requalified device. -/
def Host.requalified (h : Host) : Host :=
  { h with location := { h.location with device := h.location.device.requalified } }

namespace Explicit

/-- The report of a host as it is shown. -/
def hostReport (child : String) (h : Host) : Report :=
  ⟨child, .host, .added, (HostEntry.ofHost h).toJson.canonical⟩

theorem toOption_point (p : ConnectPoint) :
    (point p).toOption
      = if p.device.WellFormed then some { p with device := p.device.requalified } else none := by
  by_cases hwell : p.device.WellFormed
  · rw [if_pos hwell, point, DeviceId.toExplicit_of_wellFormed hwell]
    rfl
  · rw [if_neg hwell, point, DeviceId.toExplicit]
    cases hsplit : p.device.split with
    | error fault => rfl
    | ok parts => exact absurd ⟨parts.1, parts.2, hsplit⟩ hwell

/-- A host is taken up as it was shown, or not at all. -/
theorem host?_hostReport (child : String) (h : Host) :
    host? (hostReport child h) = if h.location.device.WellFormed then some h.requalified else none := by
  have hread : HostEntry.read? (hostReport child h).value = some (.ofHost h) :=
    HostEntry.reads .asValue (.ofHost h)
  have hid : (HostEntry.ofHost h).hostId.toOption = some h.id := by
    rw [HostEntry.hostId_ofHost]
    rfl
  have hlocation : (point (HostEntry.ofHost h).location).toOption
      = if h.location.device.WellFormed then some h.requalified.location else none :=
    toOption_point h.location
  unfold host?
  simp only [hread, hid, hlocation, HostEntry.ips_ofHost, Option.bind_eq_bind, Option.bind_some]
  split <;> rfl

variable {hosts : List Host} {h : Host}

theorem apply_hosts_fst (parent : Domain) (child : String) (hosts : List Host) :
    (parent.apply .explicit child
        (TopologyDocument.hosts (hosts.map fun k => (HostEntry.ofHost k).toJson)).canonical).1
      = parent.hearAll .explicit (hosts.map (hostReport child)) := by
  refine (Domain.takeUpAll_fst child .host .added _ parent).trans ?_
  rw [List.map_map, List.map_map]
  rfl

/-- A parent takes up the hosts of a document as they were shown. -/
theorem find?_hosts_applyBytes (hmem : h ∈ hosts) (hown : ∀ k ∈ hosts, k.id = h.id → k = h)
    (hwell : h.location.device.WellFormed) {parent : Domain}
    (hknown : parent.topology.knows h.location.device.requalified = true) (child : String) :
    ∃ parent' events stats,
      parent.applyBytes .explicit child (Json.bytesOf
          (TopologyDocument.hosts (hosts.map fun k => (HostEntry.ofHost k).toJson)).toJson.render)
        = .ok (parent', events, stats)
      ∧ parent'.topology.hosts.find? h.id = some h.requalified := by
  have hplain : ∀ value ∈ (TopologyDocument.hosts
      (hosts.map fun k => (HostEntry.ofHost k).toJson)).elements,
      ∀ levels, value.plain (levels + 2) = true :=
    List.forall_mem_map.2 fun k _ levels => (HostEntry.ofHost k).plain_toJson
  rw [Domain.applyBytes_eq, TopologyDocument.parse_render hplain]
  have htaken := congrArg (fun d : Domain => d.topology.hosts.find? h.id)
    (apply_hosts_fst parent child hosts)
  refine ⟨_, _, _, rfl, htaken.trans ?_⟩
  have hkind : ∀ r ∈ hosts.map (hostReport child), r.kind = .host :=
    List.forall_mem_map.2 fun _ _ => rfl
  show (parent.hearAll .explicit (hosts.map (hostReport child))).topology.hosts.find? h.id = _
  rw [hearAll_hosts_eq parent hkind]
  apply Roster.find?_putAll_of_forall (a := h.requalified)
  · rw [List.mem_filter, List.mem_filterMap]
    exact ⟨⟨_, List.mem_map_of_mem hmem, by rw [host?_hostReport, if_pos hwell]⟩, hknown⟩
  · intro other hother hsame
    obtain ⟨r, hr, htaken⟩ := List.mem_filterMap.1 (List.mem_filter.1 hother).1
    obtain ⟨k, hk, rfl⟩ := List.mem_map.1 hr
    rw [host?_hostReport] at htaken
    split at htaken
    · obtain rfl : k.requalified = other := Option.some.inj htaken
      rw [hown k hk hsame]
    · cases htaken

end Explicit

namespace Watch

/-- The entries of a view are those of hosts of the overview. -/
theorem exists_hosts_of_entries {o : Overview} {entries : List HostEntry}
    (h : ∀ entry ∈ entries, entry ∈ o.hostEntries) :
    ∃ hosts : List Host, entries = hosts.map HostEntry.ofHost ∧ ∀ k ∈ hosts, k ∈ o.hosts.items := by
  induction entries with
  | nil => exact ⟨[], rfl, by simp⟩
  | cons entry rest ih =>
    rw [List.forall_mem_cons] at h
    obtain ⟨k, hk, rfl⟩ := List.mem_map.1 h.1
    obtain ⟨hosts, rfl, hhosts⟩ := ih h.2
    exact ⟨k :: hosts, rfl, List.forall_mem_cons.2 ⟨List.mem_mergeSort.1 hk, hhosts⟩⟩

/-- **Hosts survive the trip as they were last told of.** A host of a node, on a device whose id can be
requalified, has an entry in the view of hosts, which has the addresses that the host was last told of
with. A parent that knows the device takes that entry up, alone or among others of the view, and then
has the host with the same Ethernet address and VLAN, at the same port of the requalified device, and
with those addresses in their order. So it has the host as it is exactly when it was last told of with
the addresses that it has. -/
theorem host_carried_up (steps : List WatchStep) {h : Host}
    (hheld : h ∈ (run {} steps).topology.hosts.items) (hwell : h.location.device.WellFormed) :
    ∃ last, lastToldHost? h.id (told {} steps) = some last
      ∧ HostEntry.ofHost last ∈ (run {} steps).overview.hostEntries
      ∧ ∀ (entries : List HostEntry), HostEntry.ofHost last ∈ entries →
        (∀ entry ∈ entries, entry ∈ (run {} steps).overview.hostEntries) →
        ∀ (parent : Domain) (child : String),
          parent.topology.knows h.location.device.requalified = true →
          ∃ parent' events stats,
            parent.applyBytes .explicit child (Json.bytesOf
                (TopologyDocument.hosts (entries.map HostEntry.toJson)).toJson.render)
              = .ok (parent', events, stats)
            ∧ parent'.topology.hosts.find? h.id
              = some { h.requalified with addresses := last.addresses }
            ∧ (parent'.topology.hosts.find? h.id = some h.requalified
              ↔ last.addresses = h.addresses) := by
  obtain ⟨last, hlast, hid, hlocation⟩ := exists_lastToldHost? hheld
  have hshown : last ∈ (run {} steps).overview.hosts.items := by
    rw [Roster.mem_items_iff, find?_hosts_run, hid, hlast]
  refine ⟨last, hlast, List.mem_map_of_mem (List.mem_mergeSort.2 hshown), ?_⟩
  intro entries hmem hentries parent child hknown
  obtain ⟨hosts, rfl, hhosts⟩ := exists_hosts_of_entries hentries
  have hown : ∀ k ∈ hosts, k.id = last.id → k = last :=
    fun k hk hkid => Roster.eq_of_key_eq (hhosts k hk) hshown hkid
  obtain ⟨k, hk, hsame⟩ := List.mem_map.1 hmem
  obtain rfl : k = last := hown k hk (HostEntry.id_eq_of_ofHost_eq hsame)
  have hfull : { h.requalified with addresses := k.addresses } = k.requalified := by
    simp only [Host.requalified, hid, hlocation]
  obtain ⟨parent', events, stats, happly, hfind⟩ :=
    Explicit.find?_hosts_applyBytes hk hown (hlocation ▸ hwell) (hlocation ▸ hknown) child
  rw [hid, ← hfull] at hfind
  refine ⟨parent', events, stats, ?_, hfind, ?_⟩
  · rw [List.map_map]
    exact happly
  · rw [hfind, Option.some.injEq]
    constructor
    · exact congrArg Host.addresses
    · intro haddresses
      rw [haddresses]
      rfl

/-- A parent that knows one device of its child. -/
def knowsOne : Domain := { topology := (Topology.empty.connectDevice (.switch ⟨"exvs:1"⟩)).1 }

/-- A host in a VLAN with addresses of both versions. -/
def manyAddressed : Host where
  id := ⟨⟨[2, 0, 0, 0, 0, 0x3b], rfl⟩, .tagged 100⟩
  addresses := [.v6 ⟨[0xfe80, 0, 0, 0, 1, 0, 0, 0x12ab], rfl⟩, .v4 ⟨[10, 0, 0, 1], rfl⟩,
    .v6 ⟨[0, 0, 0, 0, 0, 0xffff, 0x0a00, 1], rfl⟩]
  location := ⟨⟨"of:1"⟩, 18446744073709551615⟩

theorem host_carried_up_manyAddressed :
    let steps : List WatchStep := [.act (.connect (.switch ⟨"of:1"⟩)), .act (.attach manyAddressed)]
    manyAddressed ∈ (run {} steps).topology.hosts.items
      ∧ manyAddressed.location.device.WellFormed
      ∧ ∃ last, lastToldHost? manyAddressed.id (told {} steps) = some last
        ∧ ∃ parent events stats,
          knowsOne.applyBytes .explicit "10.0.0.2" (Json.bytesOf
              (TopologyDocument.hosts ([.ofHost last].map HostEntry.toJson)).toJson.render)
            = .ok (parent, events, stats)
          ∧ parent.topology.hosts.find? manyAddressed.id
            = some { manyAddressed.requalified with addresses := last.addresses } := by
  intro steps
  have hheld : manyAddressed ∈ (run {} steps).topology.hosts.items := by decide +kernel
  have hwell : manyAddressed.location.device.WellFormed := by decide +kernel
  have hknown : knowsOne.topology.knows manyAddressed.location.device.requalified = true := by
    decide +kernel
  obtain ⟨last, hlast, hshown, hcarried⟩ := host_carried_up steps hheld hwell
  obtain ⟨parent, events, stats, happly, hfind, -⟩ := hcarried [.ofHost last]
    (List.mem_singleton_self _) (by simpa using hshown) knowsOne "10.0.0.2" hknown
  exact ⟨hheld, hwell, last, hlast, parent, events, stats, happly, hfind⟩

/-- A host need not arrive with the addresses that it has. -/
theorem address_lost_on_the_way :
    ¬ ∀ (steps : List WatchStep), ∀ h ∈ (run {} steps).topology.hosts.items,
      ∀ entry ∈ (run {} steps).overview.hostEntries, entry.id = some (toString h.id) →
      h.location.device.WellFormed → ∀ (parent parent' : Domain) (child : String) events stats,
      parent.topology.knows h.location.device.requalified = true →
      parent.applyBytes .explicit child
          (Json.bytesOf (TopologyDocument.hosts [entry.toJson]).toJson.render)
        = .ok (parent', events, stats) →
      parent'.topology.hosts.find? h.id = some h.requalified := by
  intro h
  let host (last : UInt8) : Host :=
    { id := ⟨⟨[0, 0, 0, 0, 0, 7], rfl⟩, .untagged⟩
      addresses := [.v4 ⟨[10, 0, 0, last], rfl⟩]
      location := ⟨⟨"of:1"⟩, 5⟩ }
  have hwell : DeviceId.WellFormed ⟨"of:1"⟩ := by decide +kernel
  have hknown : knowsOne.topology.knows (DeviceId.requalified ⟨"of:1"⟩) = true := by decide +kernel
  have hheld : host 2 ∈ (run {} readdressed).topology.hosts.items := by decide +kernel
  have hshown : HostEntry.ofHost (host 1) ∈ (run {} readdressed).overview.hostEntries := by
    decide +kernel
  have hown : ∀ k ∈ [host 1], k.id = (host 1).id → k = host 1 :=
    fun k hk _ => List.mem_singleton.1 hk
  obtain ⟨parent', events, stats, happly, hfind⟩ := Explicit.find?_hosts_applyBytes
    (List.mem_singleton_self (host 1)) hown hwell hknown "10.0.0.2"
  have hother := h readdressed (host 2) hheld _ hshown rfl hwell knowsOne parent' "10.0.0.2" events
    stats hknown happly
  have hsame : (host 1).requalified = (host 2).requalified :=
    Option.some.inj (hfind.symm.trans hother)
  exact absurd (congrArg Host.addresses hsame) (by decide)

end Watch

end Multidomain
