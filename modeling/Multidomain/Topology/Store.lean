import Multidomain.Element.Basic
import Multidomain.Flow.Rule

/-!
# The topology of a node

The devices, links and hosts that a node knows, and the flow rules installed on its devices. Each
change that others may want to hear of is answered with the events that tell it; a change that tells
nothing new has no events. A link is taken up when a device at one of its ends is known, a host when
the device that it is attached to is known.
-/

namespace Multidomain

/-- What happened to a topology. -/
inductive Event where
  | deviceAdded (device : Device)
  | linkAdded (link : Link)
  | linkRemoved (link : Link)
  | hostAdded (host : Host)
  /-- A host is now elsewhere; `previous` is where it was. -/
  | hostMoved (host : Host) (previous : ConnectPoint)
  deriving DecidableEq, Repr

/-- The devices, links, hosts and flow rules of a node. -/
structure Topology where
  devices : Roster Device.id := .empty
  links : Roster Link.ends := .empty
  hosts : Roster Host.id := .empty
  flows : FlowTables := .empty
  deriving DecidableEq, Repr, Inhabited

namespace Topology

def empty : Topology := {}

def knows (t : Topology) (device : DeviceId) : Bool := t.devices.contains device

/-- A device is connected. What is known of a device is never replaced. -/
def connectDevice (t : Topology) (d : Device) : Topology × List Event :=
  if t.knows d.id then (t, []) else ({ t with devices := t.devices.put d }, [.deviceAdded d])

/-- Connecting a device makes it known, and no other. -/
theorem knows_connectDevice (t : Topology) (d : Device) (device : DeviceId) :
    (t.connectDevice d).1.knows device = (d.id == device || t.knows device) := by
  unfold connectDevice
  split
  · next h =>
    by_cases hd : d.id = device
    · subst hd; simp [h]
    · simp [hd]
  · by_cases hd : d.id = device
    · simp [knows, Roster.contains, Roster.find?_put, hd]
    · simp [knows, Roster.contains, Roster.find?_put, hd]

def detectLink (t : Topology) (l : Link) : Topology × List Event :=
  if !t.knows l.src.device && !t.knows l.dst.device then (t, [])
  else if t.links.contains l.ends then (t, [])
  else ({ t with links := t.links.put l }, [.linkAdded l])

/-- The link between two connect points has vanished. -/
def loseLink (t : Topology) (ends : Ends) : Topology × List Event :=
  match t.links.find? ends with
  | some l => ({ t with links := t.links.erase ends }, [.linkRemoved l])
  | none => (t, [])

/-- A host is detected. Its addresses are brought up to date even where that is no event. -/
def detectHost (t : Topology) (h : Host) : Topology × List Event :=
  if t.knows h.location.device then
    let events := match t.hosts.find? h.id with
      | none => [.hostAdded h]
      | some previous =>
        if previous.location = h.location then [] else [.hostMoved h previous.location]
    ({ t with hosts := t.hosts.put h }, events)
  else (t, [])

def applyFlowRules (t : Topology) (rules : List FlowRule) : Topology :=
  { t with flows := t.flows.putAll rules }

/-- Two lists of rules may as well be installed as one. -/
theorem applyFlowRules_append (t : Topology) (first second : List FlowRule) :
    t.applyFlowRules (first ++ second) = (t.applyFlowRules first).applyFlowRules second := by
  simp [applyFlowRules, Roster.putAll, List.foldl_append]

def flowRules (t : Topology) (device : DeviceId) : List FlowRule := t.flows.on device

def hostsAt (t : Topology) (point : ConnectPoint) : List Host :=
  t.hosts.items.filter fun h => h.location = point

def devicesById (t : Topology) : List Device :=
  t.devices.items.mergeSort fun a b => (compare a.id b.id).isLE

end Topology

end Multidomain
