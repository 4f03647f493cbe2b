import Multidomain.Topology.Overview

/-!
# Routes

The paths on which a node answers, and the method that each of them takes. A path may end with one
slash more; a query does not matter, and neither does an authority before the path.
-/

namespace Multidomain

/-- What a request wants done. -/
inductive Method where
  | head | delete | get | post | put | other
  deriving DecidableEq, Repr, Inhabited

def Method.ofName : String → Method
  | "HEAD" => head
  | "DELETE" => delete
  | "GET" => get
  | "POST" => post
  | "PUT" => put
  | _ => other

/-- Something that a node answers about or can be asked to do. -/
inductive Route where
  | devices (view : DeviceView)
  | links (view : LinkView)
  | hosts
  | edgeUpdates (view : LinkView)
  | provisioning
  | flows
  | children
  | abstraction
  deriving DecidableEq, Repr, Inhabited

namespace Route

def method : Route → Method
  | devices _ | links _ | hosts | edgeUpdates _ => .get
  | provisioning | flows | children => .post
  | abstraction => .put

/-- The route of a path without a slash at its end. -/
def ofPlainPath? : String → Option Route
  | "/devices" => some (devices .explicit)
  | "/devices/explicit" => some (devices .explicit)
  | "/devices/summary" => some (devices .summary)
  | "/links" => some (links .explicit)
  | "/links/explicit" => some (links .explicit)
  | "/links/summary" => some (links .summary)
  | "/links/implicit" => some (links .implicit)
  | "/hosts" => some hosts
  | "/edgeUpdates" => some (edgeUpdates .explicit)
  | "/edgeUpdates/explicit" => some (edgeUpdates .explicit)
  | "/edgeUpdates/summary" => some (edgeUpdates .summary)
  | "/edgeUpdates/implicit" => some (edgeUpdates .implicit)
  | "/provisioning" => some provisioning
  | "/flows" => some flows
  | "/children" => some children
  | "/abstraction" => some abstraction
  | _ => none

/-- What follows the scheme of a full address. -/
def afterScheme? : List Char → Option (List Char)
  | [] => none
  | ':' :: '/' :: '/' :: rest => some rest
  | c :: rest => if c = ':' ∨ c = '/' ∨ c = '?' ∨ c = '#' then none else afterScheme? rest

/-- The path in the target of a request, without query and fragment. A target that does not start
with its path is a full address, or it has none. -/
def pathOf (target : List Char) : List Char :=
  let fromPath := match target with
    | '/' :: _ => target
    | _ =>
      ((afterScheme? target).getD []).dropWhile fun c => c ≠ '/' && c ≠ '?' && c ≠ '#'
  fromPath.takeWhile fun c => c ≠ '?' && c ≠ '#'

def ofTarget? (target : String) : Option Route :=
  let path := pathOf target.toList
  match path.reverse with
  | '/' :: rest => ofPlainPath? (String.ofList rest.reverse)
  | _ => ofPlainPath? (String.ofList path)

end Route

end Multidomain
