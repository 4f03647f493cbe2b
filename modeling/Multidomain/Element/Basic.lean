import Multidomain.Address.Ethernet
import Multidomain.Address.Ip
import Multidomain.Element.DeviceId
import Multidomain.Table

/-!
# Devices, links and hosts

What a node knows of a forwarding device: its id, its kind, a few descriptive texts, whether it is
reachable and in which role this node controls it.

A connect point is a port of a device; a link runs between two of them. Three identities of a link
are in use, and each has a type of its own: all four coordinates (`Ends`), the ordered pair of
devices (`Heading`), and the unordered pair (`DevicePair`). `DevicePair.of_comm` says that the last
one forgets the orientation.

A host is known by its Ethernet address and its VLAN, and attached to one connect point. The same
host may be recorded at several places; `PinnedHost` tells those records apart.
-/

namespace Multidomain

/-! ### Devices -/

inductive DeviceKind where
  | switch | router | other
  deriving DecidableEq, Repr, Inhabited

def DeviceKind.name : DeviceKind → String
  | switch => "SWITCH"
  | router => "ROUTER"
  | other => "OTHER"

def DeviceKind.ofName? : String → Option DeviceKind
  | "SWITCH" => some switch
  | "ROUTER" => some router
  | "OTHER" => some other
  | _ => none

theorem DeviceKind.ofName?_name (k : DeviceKind) : ofName? k.name = some k := by cases k <;> rfl

/-- The role in which a controller holds a device. -/
inductive MastershipRole where
  | master | standby | none
  deriving DecidableEq, Repr, Inhabited

def MastershipRole.name : MastershipRole → String
  | master => "MASTER"
  | standby => "STANDBY"
  | none => "NONE"

def MastershipRole.ofName? : String → Option MastershipRole
  | "MASTER" => some master
  | "STANDBY" => some standby
  | "NONE" => some none
  | _ => Option.none

structure Device where
  id : DeviceId
  kind : DeviceKind := .switch
  manufacturer : String := ""
  hardware : String := ""
  software : String := ""
  serial : String := ""
  chassis : String
  annotations : Table String String := .empty
  available : Bool := true
  role : MastershipRole := .master
  deriving DecidableEq, Repr, Inhabited

/-- A bare switch; its chassis is the local part of its id. -/
def Device.switch (id : DeviceId) : Device where
  id := id
  chassis := id.localPart

/-! ### Connect points and links -/

abbrev PortNumber := UInt64

structure ConnectPoint where
  device : DeviceId
  port : PortNumber
  deriving DecidableEq, Repr, Inhabited

instance : Ord ConnectPoint :=
  ⟨fun a b => (compare a.device b.device).then (compare a.port b.port)⟩

instance : ToString ConnectPoint :=
  ⟨fun p => toString p.device ++ "/" ++ Text.decimal p.port.toNat⟩

/-- An ordered pair of devices: the identity of a link as one side reports it, ports ignored. -/
structure Heading where
  source : DeviceId
  target : DeviceId
  deriving DecidableEq, Repr, Inhabited

/-- An unordered pair of devices, held in ascending order. -/
structure DevicePair where
  low : DeviceId
  high : DeviceId
  low_le_high : low.text ≤ high.text
  deriving DecidableEq

instance : Repr DevicePair := ⟨fun p n => reprPrec (p.low, p.high) n⟩

/-- The pair of two devices, in whichever order they are given. -/
def DevicePair.of (a b : DeviceId) : DevicePair :=
  if h : a.text ≤ b.text then ⟨a, b, h⟩
  else ⟨b, a, (String.le_total a.text b.text).resolve_left h⟩

theorem DevicePair.of_comm (a b : DeviceId) : DevicePair.of a b = DevicePair.of b a := by
  unfold DevicePair.of
  split <;> split
  · next h k =>
    have : a = b := by
      cases a; cases b
      simp only [DeviceId.mk.injEq]
      exact String.le_antisymm h k
    subst this; rfl
  · rfl
  · rfl
  · next h k => exact absurd (String.le_total a.text b.text) (by simp [h, k])

structure Ends where
  src : ConnectPoint
  dst : ConnectPoint
  deriving DecidableEq, Repr, Inhabited

namespace Ends

instance : Ord Ends := ⟨fun a b => (compare a.src b.src).then (compare a.dst b.dst)⟩

instance : ToString Ends := ⟨fun e => toString e.src ++ ":" ++ toString e.dst⟩

def heading (e : Ends) : Heading := ⟨e.src.device, e.dst.device⟩

/-- The devices of the two ends, whichever way round. -/
def pair (e : Ends) : DevicePair := .of e.src.device e.dst.device

/-- The same link traversed the other way. -/
def inverted (e : Ends) : Ends := ⟨e.dst, e.src⟩

/-- The link with `device` as its source, where it is at one of its ends. -/
def orientedFrom? (e : Ends) (device : DeviceId) : Option Ends :=
  if e.src.device = device then some e
  else if e.dst.device = device then some e.inverted
  else none

@[simp] theorem inverted_inverted (e : Ends) : e.inverted.inverted = e := rfl

@[simp] theorem pair_inverted (e : Ends) : e.inverted.pair = e.pair :=
  DevicePair.of_comm _ _

end Ends

/-- Whether the two sides of a link are joined by a wire or through foreign equipment. -/
inductive LinkType where
  | direct | indirect
  deriving DecidableEq, Repr, Inhabited

def LinkType.name : LinkType → String
  | direct => "DIRECT"
  | indirect => "INDIRECT"

def LinkType.ofName? : String → Option LinkType
  | "DIRECT" => some direct
  | "INDIRECT" => some indirect
  | _ => none

inductive LinkState where
  | active | inactive
  deriving DecidableEq, Repr, Inhabited

def LinkState.name : LinkState → String
  | active => "ACTIVE"
  | inactive => "INACTIVE"

def LinkState.ofName? : String → Option LinkState
  | "ACTIVE" => some active
  | "INACTIVE" => some inactive
  | _ => none

structure Link where
  ends : Ends
  kind : LinkType := .direct
  state : LinkState := .active
  deriving DecidableEq, Repr, Inhabited

namespace Link

def src (l : Link) : ConnectPoint := l.ends.src

def dst (l : Link) : ConnectPoint := l.ends.dst

def heading (l : Link) : Heading := l.ends.heading

/-- An active direct link between two points. -/
def direct (ends : Ends) : Link := { ends }

def reversed (l : Link) : Link := { l with ends := l.ends.inverted }

end Link

/-! ### Hosts -/

structure HostId where
  mac : Mac
  vlan : Vlan
  deriving DecidableEq, Repr, Inhabited

instance : Ord HostId := ⟨fun a b => (compare a.mac b.mac).then (compare a.vlan b.vlan)⟩

instance : ToString HostId := ⟨fun h => toString h.mac ++ "/" ++ toString h.vlan⟩

structure PinnedHost where
  id : HostId
  location : ConnectPoint
  deriving DecidableEq, Repr, Inhabited

structure Host where
  id : HostId
  addresses : List Ip := []
  location : ConnectPoint
  deriving DecidableEq, Repr, Inhabited

end Multidomain
