import Multidomain.Wire.Entry

/-!
# Commands

The bodies of the requests that ask a node to do something: to provision a path between two hosts,
to install flow rules, to take up children, to change its abstraction.
-/

namespace Multidomain

/-- The Ethernet addresses of the two hosts that a path is for. -/
structure Terminal where
  src : Mac
  dst : Mac
  deriving DecidableEq, Repr, Inhabited

namespace Terminal

def toJson (t : Terminal) : Json :=
  .object [("src", .string (toString t.src)), ("dst", .string (toString t.dst))]

def read? (value : Json) : Option Terminal := do
  let r ← value.record? ["src", "dst"]
  return { src := ← r.required "src" Mac.read?, dst := ← r.required "dst" Mac.read? }

/-- The pair for the way back. -/
def swapped (t : Terminal) : Terminal := ⟨t.dst, t.src⟩

@[simp] theorem swapped_swapped (t : Terminal) : t.swapped.swapped = t := rfl

end Terminal

/-- A request for a path between two connect points. -/
structure ProvisioningRequest where
  src : ConnectPoint
  dst : ConnectPoint
  /-- The hosts at the two points; they are looked up where they are not given. -/
  terminal : Option Terminal := none
  deriving DecidableEq, Repr, Inhabited

namespace ProvisioningRequest

def bodyToJson (p : ProvisioningRequest) : Json := .ofFields
  [("src", some p.src.toJson), ("dst", some p.dst.toJson),
   ("terminal", p.terminal.map Terminal.toJson)]

def toJson (p : ProvisioningRequest) : Json := .object [("provisioning", p.bodyToJson)]

def readBody? (value : Json) : Option ProvisioningRequest := do
  let r ← value.record? ["src", "dst", "terminal"]
  return {
    src := ← r.required "src" ConnectPoint.read?
    dst := ← r.required "dst" ConnectPoint.read?
    terminal := ← r.optional "terminal" Terminal.read? }

def read? (value : Json) : Option ProvisioningRequest := do
  (← value.record? ["provisioning"]).required "provisioning" readBody?

end ProvisioningRequest

def readFlows? (value : Json) : Option (List Json) := do
  (← value.record? ["flows"]).required "flows" (Json.list? Json.any?)

def readChildren? (value : Json) : Option (List String) := do
  (← value.record? ["children"]).required "children" (Json.list? Json.text?)

def readAbstraction? (value : Json) : Option String := do
  (← value.record? ["abstraction"]).required "abstraction" Json.text?

end Multidomain
