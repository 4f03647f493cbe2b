import Mathlib.Data.List.Nodup
import Multidomain.Orchestration.Provision
import Multidomain.Proofs.Roster
import Multidomain.Proofs.Topology.Route

/-!
# The rules of a segment

A segment is given rules along the way from its entry to its exit and along the way back. Each device
on a way takes one hop of it, and the two rules of a hop are one that goes by the address that frames
go to and one that goes by where they come from.

What the rest relies on is `find?_applyFlowRules`: once the rules of a segment are installed, the rule
that goes by the destination on a device of the way is the rule of that device's hop. No two hops
are on one device, the rules that go by the source have other fields, and the rules of the way back
are for the other host, so nothing in the batch competes with it; whatever was installed before gives
way. `FlowRule.Generated` is the form that every installed rule has.
-/

namespace Multidomain

/-- The hops along links: the port by which frames come in and the connect point where they go out,
device by device. -/
def hops (exit : ConnectPoint) : PortNumber → List Link → List (PortNumber × ConnectPoint)
  | inPort, [] => [(inPort, exit)]
  | inPort, l :: rest => (inPort, l.src) :: hops exit l.dst.port rest

/-- The rule of a hop that goes by where frames come from. -/
def sourceRule (app : String) (t : Terminal) (hop : PortNumber × ConnectPoint) : FlowRule where
  device := hop.2.device
  app := app
  priority := sourcePriority
  idle := some sourceTimeout.toUInt64
  fields := [.inPort hop.1, .ethSrc t.src]
  output := hop.2.port

/-- The rule of a hop that goes by the address that frames go to. -/
def destinationRule (app : String) (t : Terminal) (hop : PortNumber × ConnectPoint) : FlowRule where
  device := hop.2.device
  app := app
  priority := destinationPriority
  idle := some destinationTimeout.toUInt64
  fields := [.ethDst t.dst]
  output := hop.2.port

/-- The slot of the rules that go by an address on a device. -/
def destinationSlot (device : DeviceId) (address : Mac) : FlowSlot :=
  ⟨device, destinationPriority, [.ethDst address]⟩

/-- The form of the rules that are made along ways. -/
inductive FlowRule.Generated (r : FlowRule) : Prop where
  | source (port : PortNumber) (address : Mac) (hpriority : r.priority = sourcePriority)
      (hfields : r.fields = [.inPort port, .ethSrc address])
  | destination (address : Mac) (hpriority : r.priority = destinationPriority)
      (hfields : r.fields = [.ethDst address])

/-- The rules along links. -/
def installedAlong (app : String) (t : Terminal) (exit : ConnectPoint) (inPort : PortNumber)
    (links : List Link) : List FlowRule :=
  (rulesAlong app t exit inPort links).filterMap fun d => d.toRule.toOption

theorem toRule_hopRules (app : String) (t : Terminal) (inPort : PortNumber) (output : ConnectPoint) :
    (hopRules app inPort output t).filterMap (fun d => d.toRule.toOption)
      = [sourceRule app t (inPort, output), destinationRule app t (inPort, output)] := rfl

theorem mem_installedAlong {app : String} {t : Terminal} {exit : ConnectPoint}
    {inPort : PortNumber} {links : List Link} {r : FlowRule} :
    r ∈ installedAlong app t exit inPort links
      ↔ ∃ hop ∈ hops exit inPort links, r = sourceRule app t hop ∨ r = destinationRule app t hop := by
  induction links generalizing inPort with
  | nil =>
    rw [installedAlong, rulesAlong, toRule_hopRules]
    simp [hops]
  | cons l rest ih =>
    have hrest : r ∈ (rulesAlong app t exit l.dst.port rest).filterMap (fun d => d.toRule.toOption)
        ↔ ∃ hop ∈ hops exit l.dst.port rest, r = sourceRule app t hop ∨ r = destinationRule app t hop :=
      ih
    rw [installedAlong, rulesAlong, List.filterMap_append, toRule_hopRules, List.mem_append, hrest]
    simp [hops]

theorem generated_of_mem_installedAlong {app : String} {t : Terminal} {exit : ConnectPoint}
    {inPort : PortNumber} {links : List Link} {r : FlowRule}
    (h : r ∈ installedAlong app t exit inPort links) : r.Generated := by
  obtain ⟨hop, -, rfl | rfl⟩ := mem_installedAlong.1 h
  · exact .source hop.1 t.src rfl rfl
  · exact .destination t.dst rfl rfl

/-- Each device along links takes one hop. -/
theorem devices_hops {source : DeviceId} {exit : ConnectPoint} (inPort : PortNumber)
    {links : List Link} (h : Leads exit.device source links) :
    (hops exit inPort links).map (fun hop => hop.2.device) = devicesAlong source links := by
  induction links generalizing source inPort with
  | nil => exact congrArg (fun device => [device]) h.symm
  | cons l rest ih =>
    obtain ⟨hsrc, hrest⟩ := h
    rw [hops, List.map_cons, ih l.dst.port hrest, hsrc]
    rfl

theorem rulesAlong_eq_flatMap (app : String) (t : Terminal) (exit : ConnectPoint)
    (inPort : PortNumber) (links : List Link) :
    rulesAlong app t exit inPort links
      = (hops exit inPort links).flatMap fun hop => hopRules app hop.1 hop.2 t := by
  induction links generalizing inPort with
  | nil => rw [hops, List.flatMap_singleton]; rfl
  | cons l rest ih => rw [rulesAlong, hops, List.flatMap_cons, ih]

namespace Topology

/-- The links from one device to another: those of a route, and none where they are the same. -/
def way? (t : Topology) (source target : DeviceId) : Option (List Link) :=
  match t.route? source target with
  | some links => some links
  | none => if source = target then some [] else none

theorem way?_spec {t : Topology} {source target : DeviceId} {links : List Link}
    (h : t.way? source target = some links) :
    Leads target source links ∧ (∀ l ∈ links, l ∈ t.links.items)
      ∧ (devicesAlong source links).Nodup := by
  unfold way? at h
  split at h
  · next hroute =>
    obtain rfl := Option.some.inj h
    exact route?_spec hroute
  · split at h
    · next hsame =>
      obtain rfl := Option.some.inj h
      exact ⟨hsame, by simp, by simp [devicesAlong]⟩
    · cases h

theorem exists_way?_of_leads {t : Topology} {source target : DeviceId} {chain : List Link}
    (hchain : Leads target source chain) (hstored : ∀ l ∈ chain, l ∈ t.links.items) :
    ∃ links, t.way? source target = some links := by
  unfold way?
  by_cases hsame : source = target
  · cases t.route? source target with
    | some links => exact ⟨links, rfl⟩
    | none => exact ⟨[], by simp [hsame]⟩
  · obtain ⟨links, hroute⟩ := exists_route?_of_leads hsame hchain hstored
    exact ⟨links, by rw [hroute]⟩

theorem way?_of_route? {t : Topology} {source target : DeviceId} {links : List Link}
    (h : t.route? source target = some links) :
    t.way? source target = some links := by
  unfold way?
  rw [h]

theorem way?_self (t : Topology) (device : DeviceId) : t.way? device device = some [] := by
  simp [way?, route?]

theorem oneWay_of_way? {t : Topology} {app : String} {src dst : ConnectPoint} {terminal : Terminal}
    {links : List Link} (h : t.way? src.device dst.device = some links) :
    t.oneWay app src dst terminal = rulesAlong app terminal dst src.port links := by
  unfold oneWay
  unfold way? at h
  cases hroute : t.route? src.device dst.device with
  | some route =>
    rw [hroute] at h
    obtain rfl : route = links := Option.some.inj h
    rfl
  | none =>
    rw [hroute] at h
    obtain ⟨hsame, hlinks⟩ := Option.ite_none_right_eq_some.1 h
    obtain rfl : [] = links := Option.some.inj hlinks
    exact if_pos hsame

/-- The rules for frames from one connect point to another. -/
def wayRules (topology : Topology) (app : String) (src dst : ConnectPoint) (t : Terminal) :
    List FlowRule :=
  match topology.way? src.device dst.device with
  | some links => installedAlong app t dst src.port links
  | none => []

theorem filterMap_oneWay (topology : Topology) (app : String) (src dst : ConnectPoint)
    (t : Terminal) :
    (topology.oneWay app src dst t).filterMap (fun d => d.toRule.toOption)
      = topology.wayRules app src dst t := by
  unfold oneWay wayRules way?
  cases topology.route? src.device dst.device with
  | some links => rfl
  | none =>
    by_cases hsame : src.device = dst.device
    · simp only [hsame, if_true]
      rfl
    · simp only [hsame, if_false, List.filterMap_nil]

theorem mem_segmentRules {topology : Topology} {app : String} {t : Terminal} {s : Segment}
    {r : FlowRule} :
    r ∈ topology.segmentRules app t s
      ↔ r ∈ topology.wayRules app s.src s.dst t ∨ r ∈ topology.wayRules app s.dst s.src t.swapped := by
  rw [← filterMap_oneWay, ← filterMap_oneWay, ← List.mem_append, ← List.filterMap_append]
  simp only [segmentRules, bothWays, List.mem_filterMap, List.mem_eraseDups]

theorem generated_of_mem_wayRules {topology : Topology} {app : String} {src dst : ConnectPoint}
    {t : Terminal} {r : FlowRule} (h : r ∈ topology.wayRules app src dst t) : r.Generated := by
  unfold wayRules at h
  split at h
  · exact generated_of_mem_installedAlong h
  · cases h

/-- Among rules for a way and for the way back, those that go by the destination of a hop's frames on
the hop's device are the hop's own. -/
theorem eq_destinationRule {topology : Topology} {app : String} {src dst : ConnectPoint}
    {t : Terminal} {links : List Link} {hop : PortNumber × ConnectPoint} {r : FlowRule}
    (hne : t.src ≠ t.dst) (hway : topology.way? src.device dst.device = some links)
    (hhop : hop ∈ hops dst src.port links)
    (hr : r ∈ topology.wayRules app src dst t ∨ r ∈ topology.wayRules app dst src t.swapped)
    (hslot : r.slot = destinationSlot hop.2.device t.dst) : r = destinationRule app t hop := by
  have hdevice : r.device = hop.2.device := congrArg FlowSlot.device hslot
  have hfields : r.fields = [.ethDst t.dst] := congrArg FlowSlot.fields hslot
  obtain hr | hr := hr
  · rw [wayRules, hway] at hr
    obtain ⟨hop', hhop', rfl | rfl⟩ := mem_installedAlong.1 hr
    · simp [sourceRule] at hfields
    · obtain ⟨hleads, -, hnodup⟩ := way?_spec hway
      rw [← devices_hops src.port hleads] at hnodup
      rw [List.inj_on_of_nodup_map hnodup hhop' hhop hdevice]
  · unfold wayRules at hr
    split at hr
    · obtain ⟨hop', -, rfl | rfl⟩ := mem_installedAlong.1 hr
      · simp [sourceRule] at hfields
      · have hsame : t.src = t.dst := by simpa [destinationRule, Terminal.swapped] using hfields
        exact absurd hsame hne
    · cases hr

/-- Once the rules for a way and for the way back are installed, frames leave each device of the way
as its hop says. -/
theorem find?_applyFlowRules {topology : Topology} {app : String} {src dst : ConnectPoint}
    {t : Terminal} {links : List Link} {rules : List FlowRule} {hop : PortNumber × ConnectPoint}
    (hrules : ∀ r, r ∈ rules ↔ r ∈ topology.wayRules app src dst t
      ∨ r ∈ topology.wayRules app dst src t.swapped)
    (hne : t.src ≠ t.dst) (hway : topology.way? src.device dst.device = some links)
    (hhop : hop ∈ hops dst src.port links) :
    (topology.applyFlowRules rules).flows.find? (destinationSlot hop.2.device t.dst)
      = some (destinationRule app t hop) := by
  have hmem : destinationRule app t hop ∈ rules := by
    rw [hrules, wayRules, hway]
    exact .inl (mem_installedAlong.2 ⟨hop, hhop, .inr rfl⟩)
  have hforall : ∀ r ∈ rules, r.slot = (destinationRule app t hop).slot →
      r = destinationRule app t hop :=
    fun r hr hslot => eq_destinationRule hne hway hhop ((hrules r).1 hr) hslot
  exact Roster.find?_putAll_of_forall hmem hforall

end Topology

end Multidomain
