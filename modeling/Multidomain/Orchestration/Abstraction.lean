/-!
# Abstractions and stages

A node shows its children's topologies in one of two ways: device by device, or as one virtual
switch per child. What it asks of its children follows from that choice, in four stages of which the
first three make up discovery.
-/

namespace Multidomain

/-- How a node takes up its children's topologies. -/
inductive Abstraction where
  /-- Every device of a child appears under an id of its own. -/
  | explicit
  /-- Every child appears as one virtual switch. -/
  | implicit
  deriving DecidableEq, Repr, Inhabited

namespace Abstraction

def name : Abstraction → String
  | explicit => "explicit"
  | implicit => "implicit"

def ofName? : String → Option Abstraction
  | "explicit" => some explicit
  | "implicit" => some implicit
  | _ => none

/-- The wording for a word that stands for no abstraction. -/
def unknownMessage (word : String) : String := "unknown abstraction: " ++ word

end Abstraction

/-- What a node asks its children for. -/
inductive Stage where
  | devices | links | hosts | edgeUpdates
  deriving DecidableEq, Repr, Inhabited

namespace Stage

/-- The stages of discovery, in order. -/
def discovery : List Stage := [devices, links, hosts]

/-- The view of a child that fits the node's own abstraction. -/
def path : Stage → Abstraction → String
  | devices, .explicit => "/devices"
  | devices, .implicit => "/devices/summary"
  | links, .explicit => "/links"
  | links, .implicit => "/links/implicit"
  | hosts, _ => "/hosts"
  | edgeUpdates, .explicit => "/edgeUpdates"
  | edgeUpdates, .implicit => "/edgeUpdates/implicit"

end Stage

end Multidomain
