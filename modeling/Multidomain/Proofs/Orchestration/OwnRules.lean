import Multidomain.Proofs.Flow.Hop
import Multidomain.Proofs.Orchestration.Planning

/-!
# On which devices rules are installed

The rules of a segment of the node's own are not laid along the segment. The topology is asked for a
way from its entry to its exit and for a way back, and either may lead through devices of a child.
`rules_on_own_devices_iff` says exactly when all rules that a request installs are on devices of the
node's own, and `rule_on_child_device` that a segment of two neighbouring devices may put rules on a
third that belongs to a child.
-/

namespace Multidomain

namespace Topology

/-- A device is on the way that the topology gives from one device to another. -/
def Passes (topology : Topology) (source target device : DeviceId) : Prop :=
  ∃ way, topology.way? source target = some way ∧ device ∈ devicesAlong source way

theorem exists_mem_wayRules_iff {topology : Topology} {app : String} {src dst : ConnectPoint}
    {t : Terminal} {device : DeviceId} :
    (∃ r ∈ topology.wayRules app src dst t, r.device = device)
      ↔ topology.Passes src.device dst.device device := by
  unfold Passes wayRules
  cases hway : topology.way? src.device dst.device with
  | none => simp
  | some way =>
    obtain ⟨hleads, -, -⟩ := way?_spec hway
    simp only [Option.some.injEq, exists_eq_left']
    rw [← devices_hops src.port hleads, List.mem_map]
    constructor
    · rintro ⟨r, hr, rfl⟩
      obtain ⟨hop, hhop, rfl | rfl⟩ := mem_installedAlong.1 hr
      · exact ⟨hop, hhop, rfl⟩
      · exact ⟨hop, hhop, rfl⟩
    · rintro ⟨hop, hhop, rfl⟩
      exact ⟨destinationRule app t hop, mem_installedAlong.2 ⟨hop, hhop, .inr rfl⟩, rfl⟩

theorem exists_mem_segmentRules_iff {topology : Topology} {app : String} {t : Terminal}
    {s : Segment} {device : DeviceId} :
    (∃ r ∈ topology.segmentRules app t s, r.device = device)
      ↔ topology.Passes s.src.device s.dst.device device
        ∨ topology.Passes s.dst.device s.src.device device := by
  rw [← exists_mem_wayRules_iff, ← exists_mem_wayRules_iff]
  constructor
  · rintro ⟨r, hr, hdevice⟩
    obtain hr | hr := mem_segmentRules.1 hr
    · exact .inl ⟨r, hr, hdevice⟩
    · exact .inr ⟨r, hr, hdevice⟩
  · rintro (⟨r, hr, hdevice⟩ | ⟨r, hr, hdevice⟩)
    · exact ⟨r, mem_segmentRules.2 (.inl hr), hdevice⟩
    · exact ⟨r, mem_segmentRules.2 (.inr hr), hdevice⟩

end Topology

namespace Domain

/-- A device is on the way along a segment of the node's own or on the way back. -/
def Touches (d : Domain) (p : ProvisioningRequest) (device : DeviceId) : Prop :=
  ∃ t links s, d.terminal? p = some t ∧ d.routeFor? p = some links ∧ s ∈ d.segmentsFor p links
    ∧ s.domain = none
    ∧ (d.topology.Passes s.src.device s.dst.device device
      ∨ d.topology.Passes s.dst.device s.src.device device)

theorem exists_mem_rulesFor_iff {d : Domain} {app : String} {p : ProvisioningRequest}
    {device : DeviceId} : (∃ r ∈ d.rulesFor app p, r.device = device) ↔ d.Touches p device := by
  unfold rulesFor Touches
  cases hterminal : d.terminal? p with
  | none => simp
  | some t =>
    cases hroute : d.routeFor? p with
    | none => simp
    | some links =>
      simp only [Topology.ownRules, List.mem_flatMap, List.mem_filter, decide_eq_true_eq]
      constructor
      · rintro ⟨r, ⟨s, ⟨hs, hdomain⟩, hr⟩, hdevice⟩
        exact ⟨t, links, s, rfl, rfl, hs, hdomain,
          Topology.exists_mem_segmentRules_iff.1 ⟨r, hr, hdevice⟩⟩
      · rintro ⟨t', links', s, ht, hlinks, hs, hdomain, hpasses⟩
        obtain rfl := Option.some.inj ht
        obtain rfl := Option.some.inj hlinks
        obtain ⟨r, hr, hdevice⟩ := Topology.exists_mem_segmentRules_iff.2 hpasses
        exact ⟨r, ⟨s, ⟨hs, hdomain⟩, hr⟩, hdevice⟩

/-- **When rules are installed on own devices only.** A request installs `rulesFor`, and these are all
on devices without owner exactly when the ways that the topology gives along the node's own segments
and back pass through such devices only. -/
theorem rules_on_own_devices_iff (d : Domain) (mode : Abstraction) (app : String)
    (p : ProvisioningRequest) :
    (d.provision mode app p).topology = d.topology.applyFlowRules (d.rulesFor app p)
      ∧ ((∀ r ∈ d.rulesFor app p, d.registry.owner? r.device = none)
        ↔ ∀ device, d.Touches p device → d.registry.owner? device = none) := by
  refine ⟨topology_provision_eq d mode app p, ?_⟩
  constructor
  · intro h device htouches
    obtain ⟨r, hr, rfl⟩ := exists_mem_rulesFor_iff.2 htouches
    exact h r hr
  · intro h r hr
    exact h r.device (exists_mem_rulesFor_iff.1 ⟨r, hr, rfl⟩)

/-- Two devices of the node's own with a link from the first to the second, and a way back through a
device of a child's only. -/
def wayBackThroughChild : Domain where
  registry := (Registry.empty.setAlias ⟨"exvs:3"⟩ ⟨"of:3"⟩).setOwner ⟨"exvs:3"⟩ "10.0.0.2"
  topology := {
    devices := Roster.empty.putAll [.switch ⟨"of:1"⟩, .switch ⟨"of:2"⟩, .switch ⟨"exvs:3"⟩]
    links := Roster.empty.putAll
      [.direct ⟨⟨⟨"of:1"⟩, 2⟩, ⟨⟨"of:2"⟩, 1⟩⟩, .direct ⟨⟨⟨"of:2"⟩, 2⟩, ⟨⟨"exvs:3"⟩, 1⟩⟩,
       .direct ⟨⟨⟨"exvs:3"⟩, 2⟩, ⟨⟨"of:1"⟩, 1⟩⟩] }

/-- The rules of a segment that no child has a part in may be on a device of a child. -/
theorem rule_on_child_device :
    let p : ProvisioningRequest :=
      { src := ⟨⟨"of:1"⟩, 5⟩
        dst := ⟨⟨"of:2"⟩, 5⟩
        terminal := some ⟨⟨[0, 0, 0, 0, 0, 1], rfl⟩, ⟨[0, 0, 0, 0, 0, 2], rfl⟩⟩ }
    wayBackThroughChild.topology.flows.items = []
      ∧ ∃ r ∈ (wayBackThroughChild.provision .explicit "strata.orch" p).topology.flows.items,
        wayBackThroughChild.registry.owner? r.device = some "10.0.0.2" := by
  decide +kernel

end Domain

end Multidomain
