import Multidomain.Proofs.Flow.Forwarding
import Multidomain.Proofs.Orchestration.Planning
import Multidomain.Proofs.Orchestration.Segment

/-!
# Delivery between the hosts of a path

A request whose route has no device of a child's on it is one segment, and the node installs the
rules for it. From then on frames to the one host are carried along the route and out by the connect
point of the request, whatever requests have been worked on before and whatever rules they left: the
rules that earlier requests installed all have the generated form, and where they compete with the
new ones they give way. Frames to the other host are carried back wherever the topology leads back.
-/

namespace Multidomain

/-- Flow tables that working on requests has filled, and nothing else. The requests may have been
worked on under any abstraction, with any topology and any registry. -/
inductive FilledByRequests : FlowTables → Prop where
  | empty : FilledByRequests .empty
  | provision {d : Domain} (mode : Abstraction) (app : String) (p : ProvisioningRequest)
      (hfilled : FilledByRequests d.topology.flows) :
      FilledByRequests (d.provision mode app p).topology.flows

namespace Topology

theorem AllGenerated.applyFlowRules {topology : Topology} {rules : List FlowRule}
    (h : topology.AllGenerated) (hrules : ∀ r ∈ rules, r.Generated) :
    (topology.applyFlowRules rules).AllGenerated := by
  intro r hr
  exact (Roster.mem_putAll hr).elim (h r) (hrules r)

theorem generated_of_mem_segmentRules {topology : Topology} {app : String} {t : Terminal}
    {s : Segment} : ∀ r ∈ topology.segmentRules app t s, r.Generated := by
  intro r hr
  exact (mem_segmentRules.1 hr).elim generated_of_mem_wayRules generated_of_mem_wayRules

end Topology

namespace Domain

theorem generated_of_mem_rulesFor {d : Domain} {app : String} {p : ProvisioningRequest} :
    ∀ r ∈ d.rulesFor app p, r.Generated := by
  intro r hr
  unfold rulesFor at hr
  split at hr
  · obtain ⟨s, -, hr⟩ := List.mem_flatMap.1 hr
    exact Topology.generated_of_mem_segmentRules r hr
  · cases hr

theorem allGenerated_provision {d : Domain} (mode : Abstraction) (app : String)
    (p : ProvisioningRequest) (h : d.topology.AllGenerated) :
    (d.provision mode app p).topology.AllGenerated := by
  rw [topology_provision_eq]
  exact h.applyFlowRules generated_of_mem_rulesFor

end Domain

theorem FilledByRequests.generated {tables : FlowTables} (h : FilledByRequests tables) :
    ∀ r ∈ tables.items, r.Generated := by
  induction h with
  | empty =>
    intro r hr
    cases hr
  | provision mode app p _ ih => exact Domain.allGenerated_provision mode app p ih

namespace Domain

variable {d : Domain} {mode : Abstraction} {app : String} {p : ProvisioningRequest}

theorem routeFor?_eq_way? (d : Domain) (p : ProvisioningRequest) :
    d.routeFor? p = d.topology.way? p.src.device p.dst.device := rfl

theorem exists_route_of_planned {localRules forwarded : Nat}
    (h : (d.provision mode app p).outcome = .planned localRules forwarded) :
    ∃ t links, d.terminal? p = some t ∧ d.routeFor? p = some links := by
  unfold provision at h
  cases hterminal : d.terminal? p with
  | none => simp [hterminal] at h
  | some t =>
    cases hroute : d.routeFor? p with
    | none => simp [hterminal, hroute] at h
    | some links => exact ⟨t, links, rfl, rfl⟩

/-- A route without owners gets the rules of one segment, and nothing else changes. -/
theorem topology_provision {t : Terminal} {links : List Link} (hterminal : d.terminal? p = some t)
    (hroute : d.routeFor? p = some links)
    (hlocal : ∀ device ∈ devicesAlong p.src.device links, d.registry.owner? device = none) :
    (d.provision mode app p).topology
      = d.topology.applyFlowRules (d.topology.segmentRules app t ⟨none, p.src, p.dst⟩) := by
  have hrules : d.topology.ownRules app t (d.segmentsFor p links)
      = d.topology.segmentRules app t ⟨none, p.src, p.dst⟩ := by
    rw [segmentsFor, splitRoute_of_one_owner hlocal]
    simp [Topology.ownRules]
  rw [provision_of_route hterminal hroute, hrules]

/-- The rules for a way and for the way back deliver along the way. -/
theorem delivers_of_rules {topology : Topology} {src dst : ConnectPoint} {t : Terminal}
    {rules : List FlowRule} {links : List Link} (hgenerated : topology.AllGenerated)
    (hrules : ∀ r, r ∈ rules ↔ r ∈ topology.wayRules app src dst t
      ∨ r ∈ topology.wayRules app dst src t.swapped)
    (hne : t.src ≠ t.dst) (hway : topology.way? src.device dst.device = some links) :
    (topology.applyFlowRules rules).Delivers t.dst src.device links dst := by
  obtain ⟨hleads, hstored, hnodup⟩ := Topology.way?_spec hway
  have hform : ∀ r ∈ rules, r.Generated := fun r hr =>
    ((hrules r).1 hr).elim Topology.generated_of_mem_wayRules Topology.generated_of_mem_wayRules
  have hsends : ∀ hop ∈ hops dst src.port links,
      (topology.applyFlowRules rules).Sends t.dst hop.2 := fun hop hhop =>
    ⟨destinationRule app t hop, Topology.find?_applyFlowRules hrules hne hway hhop, rfl⟩
  exact Topology.delivers_of_sends (hgenerated.applyFlowRules hform) hleads hstored hnodup hsends

/-- A planned path without owners delivers, whatever earlier requests installed: frames to the one
host go along the route, and frames to the other go back where the topology leads back. -/
theorem delivers_of_planned {localRules forwarded : Nat}
    (hfilled : FilledByRequests d.topology.flows)
    (hplanned : (d.provision mode app p).outcome = .planned localRules forwarded) :
    ∃ t links, d.terminal? p = some t ∧ d.routeFor? p = some links
      ∧ (t.src ≠ t.dst →
          (∀ device ∈ devicesAlong p.src.device links, d.registry.owner? device = none) →
          (d.provision mode app p).topology.Delivers t.dst p.src.device links p.dst
            ∧ ∀ chain, Leads p.src.device p.dst.device chain →
                (∀ l ∈ chain, l ∈ d.topology.links.items) →
                ∃ back, (d.provision mode app p).topology.Delivers t.src p.dst.device back p.src) := by
  obtain ⟨t, links, hterminal, hroute⟩ := exists_route_of_planned hplanned
  refine ⟨t, links, hterminal, hroute, fun hne hlocal => ?_⟩
  have hgenerated : d.topology.AllGenerated := hfilled.generated
  have hrules : ∀ r, r ∈ d.topology.segmentRules app t ⟨none, p.src, p.dst⟩
      ↔ r ∈ d.topology.wayRules app p.src p.dst t ∨ r ∈ d.topology.wayRules app p.dst p.src t.swapped :=
    fun _ => Topology.mem_segmentRules
  rw [topology_provision hterminal hroute hlocal]
  constructor
  · rw [routeFor?_eq_way?] at hroute
    exact delivers_of_rules hgenerated hrules hne hroute
  · intro chain hchain hstored
    obtain ⟨back, hback⟩ := Topology.exists_way?_of_leads hchain hstored
    have hrules' : ∀ r, r ∈ d.topology.segmentRules app t ⟨none, p.src, p.dst⟩
        ↔ r ∈ d.topology.wayRules app p.dst p.src t.swapped
          ∨ r ∈ d.topology.wayRules app p.src p.dst t.swapped.swapped := by
      intro r
      rw [hrules r, or_comm, Terminal.swapped_swapped]
    exact ⟨back, delivers_of_rules hgenerated hrules' hne.symm hback⟩

/-- The first of two hosts. -/
def firstHost : Mac := ⟨[0, 0, 0, 0, 0, 1], rfl⟩

/-- The second of two hosts. -/
def secondHost : Mac := ⟨[0, 0, 0, 0, 0, 2], rfl⟩

/-- The link from one device to another. -/
def wireThere : Link := .direct ⟨⟨⟨"of:1"⟩, 2⟩, ⟨⟨"of:2"⟩, 1⟩⟩

/-- Two devices joined in both directions. -/
def joined : Domain where
  topology := {
    devices := Roster.empty.putAll [.switch ⟨"of:1"⟩, .switch ⟨"of:2"⟩]
    links := Roster.empty.putAll [wireThere, wireThere.reversed] }

/-- A request for a path between the hosts, the second of them attached by some port. -/
def pathTo (port : PortNumber) : ProvisioningRequest where
  src := ⟨⟨"of:1"⟩, 3⟩
  dst := ⟨⟨"of:2"⟩, port⟩
  terminal := some ⟨firstHost, secondHost⟩

/-- The same devices with the rules of an earlier request, which took the second host to be elsewhere.
-/
def joinedBefore : Domain where
  topology := (joined.provision .explicit "early" (pathTo 4)).topology

theorem delivers_of_planned_joinedBefore :
    (joinedBefore.provision .implicit "late" (pathTo 5)).topology.Delivers secondHost ⟨"of:1"⟩
        [wireThere] ⟨⟨"of:2"⟩, 5⟩
      ∧ ∃ back, (joinedBefore.provision .implicit "late" (pathTo 5)).topology.Delivers firstHost
          ⟨"of:2"⟩ back ⟨⟨"of:1"⟩, 3⟩ := by
  have hfilled : FilledByRequests joinedBefore.topology.flows :=
    .provision .explicit "early" (pathTo 4) .empty
  have hplanned : (joinedBefore.provision .implicit "late" (pathTo 5)).outcome = .planned 8 0 := by
    decide +kernel
  obtain ⟨t, links, hterminal, hroute, hdelivers⟩ := delivers_of_planned hfilled hplanned
  have hway : joinedBefore.routeFor? (pathTo 5) = some [wireThere] := by decide +kernel
  obtain rfl : ⟨firstHost, secondHost⟩ = t := Option.some.inj hterminal
  obtain rfl : [wireThere] = links := Option.some.inj (hway.symm.trans hroute)
  obtain ⟨hthere, hback⟩ := hdelivers (by decide) (by decide +kernel)
  exact ⟨hthere, hback [wireThere.reversed] (by decide +kernel) (by decide +kernel)⟩

end Domain

end Multidomain
