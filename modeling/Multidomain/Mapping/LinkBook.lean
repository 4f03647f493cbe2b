import Multidomain.Element.Basic
import Multidomain.Table

/-!
# Links between virtual devices

Any number of real links may carry the one virtual link between two virtual devices. The book keeps
three things: the virtual link of each pair of virtual devices, the virtual link that each real link
carries, and for each pair of virtual devices the real links recorded for it, each with a flag that
says whether it is connected. A virtual link is up while one of the flags recorded for its pair is
set. Real links are told apart by heading, virtual links by pair of devices.
-/

namespace Multidomain

/-- The links between virtual devices and the real links that carry them. -/
structure LinkBook where
  /-- The real links recorded for a pair of virtual devices, with their flags. -/
  backers : Table DevicePair (Table Heading Bool) := .empty
  carried : Table Heading Ends := .empty
  spans : Table DevicePair Ends := .empty
  deriving DecidableEq, Repr, Inhabited

namespace LinkBook

def empty : LinkBook := {}

/-- The virtual link between two devices as seen from the first of them. -/
def lookup? (b : LinkBook) (src dst : DeviceId) : Option Ends :=
  (Table.get? b.spans (.of src dst)).bind (·.orientedFrom? src)

/-- A virtual link as seen from a device, or as it stands where the device is at neither end. -/
def seenFrom (link : Ends) (device : DeviceId) : Ends := (link.orientedFrom? device).getD link

/-- The virtual link between two devices as seen from the first of them, `fresh` being entered where
there is none. -/
def ensure (b : LinkBook) (src dst : DeviceId) (fresh : Ends) : LinkBook × Ends :=
  match Table.get? b.spans (.of src dst) with
  | some link => (b, seenFrom link src)
  | none => ({ b with spans := Table.set b.spans (.of src dst) fresh }, seenFrom fresh src)

/-- Record that a real link carries a virtual one and is connected. The virtual link of a pair that
has none is entered. -/
def record (b : LinkBook) (real virtual : Ends) : LinkBook where
  backers :=
    let flags := (Table.get? b.backers virtual.pair).getD .empty
    Table.set b.backers virtual.pair (Table.set flags real.heading true)
  carried := Table.set b.carried real.heading virtual
  spans := if b.spans.contains virtual.pair then b.spans else Table.set b.spans virtual.pair virtual

/-- The virtual link that a real one carries, connected or not. -/
def carriedBy? (b : LinkBook) (real : Ends) : Option Ends := Table.get? b.carried real.heading

/-- Clear the flag of a real link. The record of what it carries stays. -/
def disconnect (b : LinkBook) (real : Ends) : LinkBook :=
  match b.carriedBy? real with
  | none => b
  | some virtual =>
    match Table.get? b.backers virtual.pair with
    | none => b
    | some flags =>
      if flags.contains real.heading then
        { b with backers := Table.set b.backers virtual.pair (Table.set flags real.heading false) }
      else b

/-- Whether some real link recorded for the pair of a virtual link is connected. -/
def isUp (b : LinkBook) (virtual : Ends) : Bool :=
  match Table.get? b.backers virtual.pair with
  | none => false
  | some flags => flags.items.any Prod.snd

end LinkBook

end Multidomain
