import Multidomain.Flow.Hop
import Multidomain.Orchestration.Segment
import Multidomain.Orchestration.Uptake

/-!
# Provisioning a path

A request for a path between two connect points is answered by looking up the hosts at the points
(unless they are given), finding a route, and cutting it into segments. On a segment of its own the
node installs rules in both directions; a segment of a child becomes a request to that child, its
end points put in the names that the child has for them. Segments are worked on in the order of the
route.
-/

namespace Multidomain

inductive ProvisionOutcome where
  /-- There is no host at one of the two points. -/
  | unresolved
  /-- No route leads from the one device to the other. -/
  | unreachable
  /-- The path was planned: the number of rules installed and of requests sent on. -/
  | planned (localRules forwarded : Nat)
  deriving DecidableEq, Repr

structure SubRequest where
  child : String
  request : ProvisioningRequest
  deriving DecidableEq, Repr

structure Provisioned where
  outcome : ProvisionOutcome
  topology : Topology
  subRequests : List SubRequest := []

/-- What a child calls a connect point of its own. -/
def Registry.childPoint? (r : Registry) (mode : Abstraction) (p : ConnectPoint) :
    Option ConnectPoint :=
  match mode with
  | .explicit => (r.native? p.device).map fun device => { p with device }
  | .implicit => r.resolve? p.device p.port

/-- The request to a child for a segment; none where the child's name for an end point is not known.
-/
def Registry.subRequest? (r : Registry) (mode : Abstraction) (t : Terminal) (child : String)
    (s : Segment) : Option SubRequest := do
  let src ← r.childPoint? mode s.src
  let dst ← r.childPoint? mode s.dst
  return { child, request := { src, dst, terminal := some t } }

/-- The rules for a segment of the node's own. -/
def Topology.segmentRules (topology : Topology) (app : String) (t : Terminal) (s : Segment) :
    List FlowRule :=
  (topology.bothWays app s.src s.dst t).filterMap fun d => d.toRule.toOption

namespace Domain

/-- Work on segments in order. Gives the topology, the number of rules installed and the requests.
-/
def workOn (mode : Abstraction) (app : String) (t : Terminal) (r : Registry) :
    List Segment → Topology → Topology × Nat × List SubRequest
  | [], topology => (topology, 0, [])
  | s :: rest, topology =>
    match s.domain with
    | none =>
      let rules := topology.segmentRules app t s
      let (topology, installed, requests) :=
        workOn mode app t r rest (topology.applyFlowRules rules)
      (topology, rules.length + installed, requests)
    | some child =>
      let (topology, installed, requests) := workOn mode app t r rest topology
      (topology, installed, (r.subRequest? mode t child s).toList ++ requests)

/-- The hosts that a path is for: the given ones, or the first at each of the two points. -/
def terminal? (d : Domain) (p : ProvisioningRequest) : Option Terminal :=
  match p.terminal with
  | some t => some t
  | none => do
    let src ← (d.topology.hostsAt p.src).head?
    let dst ← (d.topology.hostsAt p.dst).head?
    return ⟨src.id.mac, dst.id.mac⟩

/-- The links from the one device to the other; no links where they are the same. -/
def routeFor? (d : Domain) (p : ProvisioningRequest) : Option (List Link) :=
  match d.topology.route? p.src.device p.dst.device with
  | some links => some links
  | none => if p.src.device = p.dst.device then some [] else none

def provision (d : Domain) (mode : Abstraction) (app : String) (p : ProvisioningRequest) :
    Provisioned :=
  match d.terminal? p with
  | none => ⟨.unresolved, d.topology, []⟩
  | some t =>
    match d.routeFor? p with
    | none => ⟨.unreachable, d.topology, []⟩
    | some links =>
      let segments := splitRoute d.registry.owner? p.src p.dst (links.map Link.ends)
      let (topology, installed, subRequests) := workOn mode app t d.registry segments d.topology
      ⟨.planned installed subRequests.length, topology, subRequests⟩

end Domain

end Multidomain
