import Multidomain.Topology.Store

/-!
# Routes through a topology

A route is a chain of one-way links, each starting on the device where the one before ended.
`Topology.route?` finds a shortest one. The search goes in rounds: a trail is a chain from the
source, held last link first; in every round each trail is continued along every link that leads on
to a device not seen before, so that the trails of round `n` end on exactly the devices that `n`
links lead to and no fewer do.
-/

namespace Multidomain

/-- A chain of links from the source of a search, the last link first. -/
structure Trail where
  /-- The device that the trail has reached. -/
  reached : DeviceId
  links : List Link := []
  deriving DecidableEq, Repr

namespace Trail

/-- The trail continued along a link. -/
def extend (t : Trail) (l : Link) : Trail := ⟨l.dst.device, l :: t.links⟩

end Trail

/-- The devices seen so far and the trails of the next round. -/
structure Frontier where
  seen : List DeviceId
  trails : List Trail
  deriving DecidableEq, Repr

namespace Frontier

/-- Continue a trail along a link, if the link starts where the trail has got to and ends on a
device not seen before. -/
def follow (t : Trail) (f : Frontier) (l : Link) : Frontier :=
  if l.src.device = t.reached ∧ l.dst.device ∉ f.seen then
    ⟨l.dst.device :: f.seen, f.trails ++ [t.extend l]⟩
  else f

/-- Continue each of the trails along each of the links. -/
def advance (links : List Link) (seen : List DeviceId) (trails : List Trail) : Frontier :=
  trails.foldl (fun f t => links.foldl (follow t) f) ⟨seen, []⟩

end Frontier

/-- The first trail to reach `target`, in at most `rounds` rounds after the present one. -/
def searchTrail (links : List Link) (target : DeviceId) :
    Nat → List DeviceId → List Trail → Option Trail
  | rounds, seen, trails =>
    match trails.find? fun t => t.reached = target with
    | some t => some t
    | none =>
      match rounds with
      | 0 => none
      | rounds + 1 =>
        let next := Frontier.advance links seen trails
        searchTrail links target rounds next.seen next.trails

/-- A shortest chain of links from one device to another; none from a device to itself. Every round
but the last sees a new device at the end of a link, so there are never more rounds than links. -/
def Topology.route? (t : Topology) (source target : DeviceId) : Option (List Link) :=
  if source = target then none
  else
    let links := t.links.items
    (searchTrail links target links.length [source] [{ reached := source }]).map (·.links.reverse)

end Multidomain
