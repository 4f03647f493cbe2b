import Multidomain.Topology.Store

/-!
# Notices to a topology

Whatever is announced on behalf of children passes through here. A notice is refused unless the
devices that it names carry one of the orchestrator's own schemes, and the two ends of a link the
same one. A series of notices is taken in order up to the first refused one.
-/

namespace Multidomain

/-- Something announced on behalf of a child. -/
inductive Notice where
  | device (device : Device)
  | link (ends : Ends)
  | unlink (ends : Ends)
  | host (host : Host)
  deriving DecidableEq, Repr

inductive Refusal where
  | device (id : DeviceId)
  | link (ends : Ends)
  | host (id : HostId) (location : ConnectPoint)
  deriving DecidableEq, Repr

def Refusal.message : Refusal → String
  | device id => "rejected: device " ++ toString id
  | link ends => "rejected: link " ++ toString ends.src ++ " -> " ++ toString ends.dst
  | host id location => "rejected: host " ++ toString id ++ " at " ++ toString location

/-- Whether both ends of a link carry one and the same of the orchestrator's schemes. -/
def Ends.sameScheme (e : Ends) : Bool :=
  match e.src.device.orchestratedScheme?, e.dst.device.orchestratedScheme? with
  | some a, some b => a == b
  | _, _ => false

namespace Notice

/-- Why a notice is refused, if it is. -/
def refusal? : Notice → Option Refusal
  | device d => if d.id.orchestratedScheme?.isSome then none else some (.device d.id)
  | link ends => if ends.sameScheme then none else some (.link ends)
  | unlink ends => if ends.sameScheme then none else some (.link ends)
  | host h =>
    if h.location.device.orchestratedScheme?.isSome then none else some (.host h.id h.location)

end Notice

namespace Topology

def heed (t : Topology) : Notice → Topology × List Event
  | .device d => t.connectDevice d
  | .link ends => t.detectLink (.direct ends)
  | .unlink ends => t.loseLink ends
  | .host h => t.detectHost h

/-- Act on notices in order, up to the first that is refused. -/
def heedAll (t : Topology) : List Notice → Topology × List Event × Option Refusal
  | [] => (t, [], none)
  | notice :: rest =>
    match notice.refusal? with
    | some refusal => (t, [], some refusal)
    | none =>
      let (t, now) := t.heed notice
      let (t, later, refusal) := t.heedAll rest
      (t, now ++ later, refusal)

end Topology

end Multidomain
