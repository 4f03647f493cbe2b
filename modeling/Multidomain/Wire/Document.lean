import Multidomain.Json.Reader
import Multidomain.Json.Record

/-!
# Topology documents

What a child sends of its topology: a list of devices, of links or of hosts, or the links added and
deleted since it was last asked. Where a document could be several of these, edge updates come
first, then devices, then links. The elements are kept as they came, to be read one by one.
-/

namespace Multidomain

structure EdgeUpdates where
  added : List Json
  deleted : List Json
  deriving BEq, Repr, Inhabited

namespace EdgeUpdates

def isEmpty (u : EdgeUpdates) : Bool := u.added.isEmpty && u.deleted.isEmpty

def toJson (u : EdgeUpdates) : Json :=
  .object [("added", .array u.added), ("deleted", .array u.deleted)]

def read? (value : Json) : Option EdgeUpdates := do
  let r ← value.record? ["added", "deleted"]
  return {
    added := ← r.defaulted "added" [] (Json.list? Json.any?)
    deleted := ← r.defaulted "deleted" [] (Json.list? Json.any?) }

/-- The document that holds nothing but the updates. -/
def toDocument (u : EdgeUpdates) : Json := .object [("edgeUpdates", u.toJson)]

def readDocument? (value : Json) : Option EdgeUpdates := do
  (← value.record? ["edgeUpdates"]).required "edgeUpdates" read?

end EdgeUpdates

/-- What a child sends of its topology. -/
inductive TopologyDocument where
  | devices (elements : List Json)
  | links (elements : List Json)
  | hosts (elements : List Json)
  | edgeUpdates (updates : EdgeUpdates)
  deriving BEq, Repr

/-- Why bytes are no topology document. -/
inductive DocumentFault where
  /-- They are no JSON text, or the part that names the document is of the wrong shape. -/
  | illFormed
  /-- Nothing in them names a document. -/
  | unrecognized
  deriving DecidableEq, Repr

/-- The wording of the fault, where it has one. -/
def DocumentFault.message? : DocumentFault → Option String
  | illFormed => none
  | unrecognized => some "document has no devices, links, hosts or edgeUpdates"

namespace TopologyDocument

def ofJson (value : Json) : Except DocumentFault TopologyDocument :=
  let elements (field : Json) (make : List Json → TopologyDocument) :=
    match field.list? Json.any? with
    | some items => .ok (make items)
    | none => .error .illFormed
  match value.field? "edgeUpdates", value.field? "devices", value.field? "links",
      value.field? "hosts" with
  | some field, _, _, _ =>
    match EdgeUpdates.read? field with
    | some updates => .ok (.edgeUpdates updates)
    | none => .error .illFormed
  | none, some field, _, _ => elements field .devices
  | none, none, some field, _ => elements field .links
  | none, none, none, some field => elements field .hosts
  | none, none, none, none => .error .unrecognized

def toJson : TopologyDocument → Json
  | devices elements => .object [("devices", .array elements)]
  | links elements => .object [("links", .array elements)]
  | hosts elements => .object [("hosts", .array elements)]
  | edgeUpdates updates => updates.toDocument

def parse (bytes : List UInt8) : Except DocumentFault TopologyDocument :=
  match (Json.parse? bytes).bind Json.any? with
  | some value => ofJson value
  | none => .error .illFormed

end TopologyDocument

end Multidomain
