import Multidomain.Orchestration.Provision

/-!
# What comes of a request for a path

Segments are worked on one after the other, and each may install rules. Rules do not change where
routes lead, so the rules of a segment are those that the topology before the request would give it.
`provision_of_route` says it of the whole request: the rules of the node's own segments are installed
in order, the requests for the other segments are sent on in order, and nothing else happens.
-/

namespace Multidomain

namespace Topology

/-- The rules for the segments of the node's own. -/
def ownRules (topology : Topology) (app : String) (t : Terminal) (segments : List Segment) :
    List FlowRule :=
  (segments.filter fun s => s.domain = none).flatMap (topology.segmentRules app t)

theorem route?_congr {t t' : Topology} (h : t'.links = t.links) (source target : DeviceId) :
    t'.route? source target = t.route? source target := by
  unfold route?
  rw [h]

theorem ownRules_congr {t t' : Topology} (h : t'.links = t.links) (app : String) (terminal : Terminal)
    (segments : List Segment) :
    t'.ownRules app terminal segments = t.ownRules app terminal segments := by
  unfold ownRules segmentRules bothWays oneWay
  simp only [route?_congr h]

@[simp] theorem links_applyFlowRules (t : Topology) (rules : List FlowRule) :
    (t.applyFlowRules rules).links = t.links := rfl

end Topology

/-- The requests for the segments of children, where the children's names for the end points are
known. -/
def Registry.subRequests (r : Registry) (mode : Abstraction) (t : Terminal)
    (segments : List Segment) : List SubRequest :=
  segments.flatMap fun s =>
    match s.domain with
    | none => []
    | some child => (r.subRequest? mode t child s).toList

namespace Domain

theorem workOn_eq (mode : Abstraction) (app : String) (t : Terminal) (r : Registry)
    (segments : List Segment) (topology : Topology) :
    workOn mode app t r segments topology =
      (topology.applyFlowRules (topology.ownRules app t segments),
        (topology.ownRules app t segments).length, r.subRequests mode t segments) := by
  induction segments generalizing topology with
  | nil => rfl
  | cons s rest ih =>
    rw [workOn]
    cases hdomain : s.domain with
    | none =>
      have hrules : topology.ownRules app t (s :: rest)
          = topology.segmentRules app t s ++ topology.ownRules app t rest := by
        simp [Topology.ownRules, hdomain]
      have hlater := Topology.ownRules_congr
        (topology.links_applyFlowRules (topology.segmentRules app t s)) app t rest
      have hrequests : r.subRequests mode t (s :: rest) = r.subRequests mode t rest := by
        simp [Registry.subRequests, hdomain]
      simp only [ih, hlater, hrules, hrequests, List.length_append,
        Topology.applyFlowRules_append]
    | some child =>
      have hrules : topology.ownRules app t (s :: rest) = topology.ownRules app t rest := by
        simp [Topology.ownRules, hdomain]
      have hrequests : r.subRequests mode t (s :: rest)
          = (r.subRequest? mode t child s).toList ++ r.subRequests mode t rest := by
        simp [Registry.subRequests, hdomain]
      simp only [ih, hrules, hrequests]

variable {d : Domain} {p : ProvisioningRequest}

/-- The segments of the route for a request. -/
def segmentsFor (d : Domain) (p : ProvisioningRequest) (links : List Link) : List Segment :=
  splitRoute d.registry.owner? p.src p.dst (links.map Link.ends)

theorem provision_of_route {t : Terminal} {links : List Link} (hterminal : d.terminal? p = some t)
    (hroute : d.routeFor? p = some links) (mode : Abstraction) (app : String) :
    d.provision mode app p =
      ⟨.planned (d.topology.ownRules app t (d.segmentsFor p links)).length
          (d.registry.subRequests mode t (d.segmentsFor p links)).length,
        d.topology.applyFlowRules (d.topology.ownRules app t (d.segmentsFor p links)),
        d.registry.subRequests mode t (d.segmentsFor p links)⟩ := by
  unfold provision
  rw [hterminal, hroute]
  simp only [workOn_eq, segmentsFor]

/-- The rules that a request installs: those of the node's own segments, where there is a path. -/
def rulesFor (d : Domain) (app : String) (p : ProvisioningRequest) : List FlowRule :=
  match d.terminal? p, d.routeFor? p with
  | some t, some links => d.topology.ownRules app t (d.segmentsFor p links)
  | _, _ => []

/-- A request installs its rules, and changes nothing else of the topology. -/
theorem topology_provision_eq (d : Domain) (mode : Abstraction) (app : String)
    (p : ProvisioningRequest) :
    (d.provision mode app p).topology = d.topology.applyFlowRules (d.rulesFor app p) := by
  unfold rulesFor
  cases hterminal : d.terminal? p with
  | none => simp only [provision, hterminal]; rfl
  | some t =>
    cases hroute : d.routeFor? p with
    | none => simp only [provision, hterminal, hroute]; rfl
    | some links => rw [provision_of_route hterminal hroute]

end Domain

end Multidomain
