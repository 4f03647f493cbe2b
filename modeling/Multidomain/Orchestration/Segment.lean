import Multidomain.Element.Basic

/-!
# Segments of a route

A route is cut wherever the owner of its devices changes. Each segment is a maximal run of devices
of one owner, given by the connect points where traffic enters and leaves it; devices without owner
make up a domain of their own, the node's.
-/

namespace Multidomain

/-- A run of devices of one owner along a route. -/
structure Segment where
  /-- The child that owns the devices; none for the node itself. -/
  domain : Option String
  src : ConnectPoint
  dst : ConnectPoint
  deriving DecidableEq, Repr

/-- Cut the rest of a route, `domain` being the owner of the present segment and `start` where it
was entered. -/
def cutRoute (owner? : DeviceId → Option String) (dst : ConnectPoint) :
    Option String → ConnectPoint → List Ends → List Segment
  | domain, start, [] => [⟨domain, start, dst⟩]
  | domain, start, link :: rest =>
    let next := owner? link.dst.device
    if next = domain then cutRoute owner? dst domain start rest
    else ⟨domain, start, link.src⟩ :: cutRoute owner? dst next link.dst rest

theorem cutRoute_ne_nil (owner? : DeviceId → Option String) (dst : ConnectPoint)
    (domain : Option String) (start : ConnectPoint) (links : List Ends) :
    cutRoute owner? dst domain start links ≠ [] := by
  induction links generalizing domain start with
  | nil => simp [cutRoute]
  | cons link rest ih =>
    rw [cutRoute]
    split
    · exact ih domain start
    · simp

/-- The first segment is entered where the route was. -/
theorem head?_cutRoute (owner? : DeviceId → Option String) (dst : ConnectPoint)
    (domain : Option String) (start : ConnectPoint) (links : List Ends) :
    ((cutRoute owner? dst domain start links).head?).map Segment.src = some start := by
  induction links generalizing domain start with
  | nil => rfl
  | cons link rest ih =>
    rw [cutRoute]
    split
    · exact ih domain start
    · rfl

/-- The last segment is left where the route is. -/
theorem getLast?_cutRoute (owner? : DeviceId → Option String) (dst : ConnectPoint)
    (domain : Option String) (start : ConnectPoint) (links : List Ends) :
    ((cutRoute owner? dst domain start links).getLast?).map Segment.dst = some dst := by
  induction links generalizing domain start with
  | nil => rfl
  | cons link rest ih =>
    rw [cutRoute]
    split
    · exact ih domain start
    · rw [List.getLast?_cons_of_ne_nil (cutRoute_ne_nil owner? dst _ _ _)]
      exact ih _ _

/-- The segments of the route from `src` to `dst` along the links; one segment where there are no
links. -/
def splitRoute (owner? : DeviceId → Option String) (src dst : ConnectPoint) (links : List Ends) :
    List Segment :=
  cutRoute owner? dst (owner? src.device) src links

end Multidomain
