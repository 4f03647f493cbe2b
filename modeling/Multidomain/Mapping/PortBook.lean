import Multidomain.Element.Basic
import Multidomain.Table

/-!
# Ports of virtual devices

A virtual device hands out its ports in order, starting with one, and each port stands for one
connect point of a real device. A connect point that has a port keeps it. A port space is therefore
nothing but the list of the connect points that were given ports, the first of them holding port
one: `port?` is the position of a point in the list, and `point?` the point that was given a port.

The tables of a session are changed where they stand. What can fail is a computation on the table,
and what has been written before a fault stays written.
-/

namespace Multidomain

structure PortSpace where
  /-- The connect points that hold ports, in order of their ports. -/
  points : List ConnectPoint := []
  nodup_points : points.Nodup := by simp
  deriving DecidableEq

namespace PortSpace

instance : Repr PortSpace := ⟨fun s n => reprPrec s.points n⟩

def empty : PortSpace := {}

instance : Inhabited PortSpace := ⟨empty⟩

def portAt (position : Nat) : PortNumber := UInt64.ofNat (position + 1)

def port? (s : PortSpace) (point : ConnectPoint) : Option PortNumber :=
  (s.points.idxOf? point).map portAt

/-- The port that a connect point holds once it has been given one. -/
def portAfter (s : PortSpace) (point : ConnectPoint) : PortNumber :=
  portAt (s.points.idxOf point)

/-- The connect point that holds a port: the last that was given it, should the numbers have run out
and begun again. -/
def point? (s : PortSpace) (port : PortNumber) : Option ConnectPoint :=
  s.points.reverse.find? fun point => s.portAfter point = port

/-- Give a connect point the next port, unless it holds one. -/
def allocate (s : PortSpace) (point : ConnectPoint) : PortSpace :=
  if h : point ∈ s.points then s
  else { points := s.points ++ [point]
         nodup_points := by
           rw [List.nodup_append]
           refine ⟨s.nodup_points, by simp, ?_⟩
           intro a ha b hb hab
           rw [List.mem_singleton] at hb
           exact h (hb ▸ hab ▸ ha) }

/-- A connect point that holds a port changes nothing. -/
theorem allocate_of_mem {s : PortSpace} {point : ConnectPoint} (h : point ∈ s.points) :
    s.allocate point = s := by
  simp [allocate, h]

/-- A new connect point goes to the end, which gives it the next port. -/
theorem points_allocate_of_not_mem {s : PortSpace} {point : ConnectPoint} (h : point ∉ s.points) :
    (s.allocate point).points = s.points ++ [point] := by
  simp [allocate, h]

end PortSpace

/-- Why a table has no answer for a device. -/
inductive TableFault where
  /-- The virtual device has no port space. -/
  | notInitialized (device : DeviceId)
  /-- The device is not mapped to a virtual one. -/
  | unmapped (device : DeviceId)
  deriving DecidableEq, Repr

def TableFault.message : TableFault → String
  | notInitialized device => "implicit device not initialized: " ++ device.text
  | unmapped device => "device has no implicit mapping: " ++ device.text

abbrev PortBook := Table DeviceId PortSpace

namespace PortBook

def isOpen (b : PortBook) (device : DeviceId) : Bool := b.contains device

/-- Give a device a port space, unless it has one. -/
def openSpace (b : PortBook) (device : DeviceId) : PortBook :=
  if b.contains device then b else Table.set b device .empty

/-- Give a connect point a port on a device that has a port space. -/
def allocateInPlace (device : DeviceId) (point : ConnectPoint) :
    EStateM TableFault PortBook PortNumber := do
  match Table.get? (← get) device with
  | none => throw (.notInitialized device)
  | some space =>
    modify fun b => Table.set b device (space.allocate point)
    return space.portAfter point

/-- The connect point that holds a port of a device. -/
def resolve? (b : PortBook) (device : DeviceId) (port : PortNumber) : Option ConnectPoint :=
  (Table.get? b device).bind (·.point? port)

end PortBook

end Multidomain
