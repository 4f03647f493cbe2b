import Multidomain.Element.Basic
import Multidomain.Mapping.LinkBook
import Multidomain.Mapping.PortBook

/-!
# The registry of a session

Everything that a node remembers of how its children's elements appear in its own topology: which
child owns a device, which explicit id stands for which native id, which virtual device a device
belongs to, which ports and links the virtual devices have, and where hosts appear.

Folding maps a real link to the virtual link between the virtual devices of its two ends. The first
real link folded for a pair of virtual devices gives the virtual link its two ports; later ones
share it.
-/

namespace Multidomain

/-- How the elements of children appear in a node's topology. -/
structure Registry where
  /-- The child that owns a device; a device without owner is the node's own. -/
  owners : Table DeviceId String := .empty
  /-- The native id that an explicit id stands for. -/
  natives : Table DeviceId DeviceId := .empty
  /-- The explicit id that stands for a native id. -/
  aliases : Table DeviceId DeviceId := .empty
  /-- The virtual device that a device belongs to. -/
  virtuals : Table DeviceId DeviceId := .empty
  ports : PortBook := .empty
  links : LinkBook := .empty
  /-- Where the host at a real connect point appears. -/
  hosts : Table PinnedHost PinnedHost := .empty
  /-- Where the host at a virtual connect point really is. -/
  virtualHosts : Table PinnedHost PinnedHost := .empty
  deriving DecidableEq, Repr, Inhabited

namespace Registry

def empty : Registry := {}

def setOwner (r : Registry) (device : DeviceId) (child : String) : Registry :=
  { r with owners := Table.set r.owners device child }

def owner? (r : Registry) (device : DeviceId) : Option String := Table.get? r.owners device

theorem owner?_setOwner (r : Registry) (device other : DeviceId) (child : String) :
    (r.setOwner device child).owner? other =
      if device = other then some child else r.owner? other :=
  Table.get?_set r.owners device child other

/-- Let an explicit id stand for a native one. The native id that it stood for before no longer has
an explicit id. -/
def setAlias (r : Registry) (explicit native : DeviceId) : Registry :=
  let kept := match Table.get? r.natives explicit with
    | some previous => if previous = native then r.aliases else r.aliases.erase previous
    | none => r.aliases
  { r with
    natives := Table.set r.natives explicit native
    aliases := Table.set kept native explicit }

def native? (r : Registry) (explicit : DeviceId) : Option DeviceId := Table.get? r.natives explicit

theorem native?_setAlias (r : Registry) (explicit native other : DeviceId) :
    (r.setAlias explicit native).native? other =
      if explicit = other then some native else r.native? other :=
  Table.get?_set r.natives explicit native other

def explicit? (r : Registry) (native : DeviceId) : Option DeviceId := Table.get? r.aliases native

/-- Let a device belong to a virtual one, which has a port space from then on. -/
def mapDevice (r : Registry) (device virtual : DeviceId) : Registry :=
  { r with
    ports := r.ports.openSpace virtual
    virtuals := Table.set r.virtuals device virtual }

def virtual? (r : Registry) (device : DeviceId) : Option DeviceId := Table.get? r.virtuals device

theorem virtual?_mapDevice (r : Registry) (device virtual other : DeviceId) :
    (r.mapDevice device virtual).virtual? other =
      if device = other then some virtual else r.virtual? other :=
  Table.get?_set r.virtuals device virtual other

/-- The virtual device that a device belongs to, or the fault that it belongs to none. -/
def virtualInPlace (device : DeviceId) : EStateM TableFault Registry DeviceId := do
  match (← get).virtual? device with
  | none => throw (.unmapped device)
  | some virtual => return virtual

/-- Give a connect point a port on a virtual device. -/
def allocatePortInPlace (virtual : DeviceId) (point : ConnectPoint) :
    EStateM TableFault Registry PortNumber := fun r =>
  match (PortBook.allocateInPlace virtual point).run r.ports with
  | .ok port ports => .ok port { r with ports }
  | .error fault ports => .error fault { r with ports }

/-- Give a connect point a port on the virtual device that it belongs to. -/
def exposePointInPlace (point : ConnectPoint) : EStateM TableFault Registry ConnectPoint := do
  let device ← virtualInPlace point.device
  let port ← allocatePortInPlace device point
  return { device, port }

/-- The connect point behind a port of a virtual device. -/
def resolve? (r : Registry) (virtual : DeviceId) (port : PortNumber) : Option ConnectPoint :=
  r.ports.resolve? virtual port

/-- The virtual link between the virtual devices of the two ends of a real link, made with new ports
where there is none. The first port is given out before the second is asked for, and it stays given out
should there be no second. -/
def linkBetweenInPlace (src dst : DeviceId) (real : Ends) : EStateM TableFault Registry Ends := do
  match Table.get? (← get).links.spans (.of src dst) with
  | some link => return LinkBook.seenFrom link src
  | none =>
    let srcPort ← allocatePortInPlace src real.src
    let dstPort ← allocatePortInPlace dst real.dst
    let link : Ends := ⟨⟨src, srcPort⟩, ⟨dst, dstPort⟩⟩
    modify fun r =>
      { r with links := { r.links with spans := Table.set r.links.spans (.of src dst) link } }
    return LinkBook.seenFrom link src

/-- Fold a real link into the virtual link between the virtual devices of its ends, as seen from the
real link's source. -/
def foldLinkInPlace (real : Ends) : EStateM TableFault Registry Ends := do
  let src ← virtualInPlace real.src.device
  let dst ← virtualInPlace real.dst.device
  let link ← linkBetweenInPlace src dst real
  modify fun r => { r with links := r.links.record real link }
  return link

/-- Record that a real link carries a virtual one. -/
def recordLink (r : Registry) (real virtual : Ends) : Registry :=
  { r with links := r.links.record real virtual }

/-- Note that a real link is no longer connected, and tell which virtual link it carries. -/
def disconnectLink (r : Registry) (real : Ends) : Registry × Option Ends :=
  ({ r with links := r.links.disconnect real }, r.links.carriedBy? real)

/-- Record where a host appears, and tell whether its real place was unrecorded. -/
def recordHost (r : Registry) (real virtual : PinnedHost) : Registry × Bool :=
  ({ r with
     hosts := Table.set r.hosts real virtual
     virtualHosts := Table.set r.virtualHosts virtual real },
   !r.hosts.contains real)

end Registry

end Multidomain
