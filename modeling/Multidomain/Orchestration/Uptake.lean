import Multidomain.Child.Address
import Multidomain.Mapping.Registry
import Multidomain.Orchestration.Abstraction
import Multidomain.Orchestration.Notice
import Multidomain.Wire.Document
import Multidomain.Wire.Entry

/-!
# Taking up what children report

Each abstraction has a handler for the elements that children report. It works on the tables and the
topology where they stand, step by step, and a step that fails ends it: what it has written and told by
then stays. Under the explicit abstraction a device keeps its identity under the orchestrator's scheme,
and links and hosts follow their devices. Under the implicit one a device is absorbed by the virtual
switch of its child, a link between two virtual switches is folded into the one virtual link between
them and shown in both directions, a link inside one virtual switch is not shown, and a host appears at a
virtual port. A virtual link is withdrawn when no connected real link carries it any more.

The elements of a document are taken one by one; one that cannot be read or that its handler fails on is
skipped and counted, and the others go on from what it left behind. A document that has been received is
taken up once at most.
-/

namespace Multidomain

inductive ElementKind where
  | device | link | host
  deriving DecidableEq, Repr, Inhabited

/-- Whether a link has come or gone. -/
inductive Change where
  | added | removed
  deriving DecidableEq, Repr, Inhabited

inductive Element where
  | device (entry : DeviceEntry)
  | link (entry : LinkEntry) (change : Change)
  | host (entry : HostEntry)
  deriving DecidableEq, Repr

def Element.read? (kind : ElementKind) (change : Change) (value : Json) : Option Element :=
  match kind with
  | .device => (DeviceEntry.read? value).map .device
  | .link => (LinkEntry.read? value).map fun entry => .link entry change
  | .host => (HostEntry.read? value).map .host

inductive ElementFault where
  | malformed
  | parse (error : ParseError)
  | table (fault : TableFault)
  | rejected (refusal : Refusal)
  deriving DecidableEq, Repr

/-- The wording of the fault, where it has one. -/
def ElementFault.message? : ElementFault → Option String
  | malformed => none
  | parse error => some error.message
  | table fault => some fault.message
  | rejected refusal => some refusal.message

/-- The registry and the topology of a node: what its children's elements act on. -/
structure Domain where
  registry : Registry := .empty
  topology : Topology := .empty
  deriving DecidableEq, Repr, Inhabited

/-- A domain while an element is taken up, and what has been told of it so far. -/
structure Uptake extends Domain where
  events : List Event := []

abbrev Handler := EStateM ElementFault Uptake

namespace Uptake

def onRegistry (change : Registry → Registry) : Handler Unit :=
  modify fun u => { u with registry := change u.registry }

/-- Do in the tables what may fail there. -/
def onTables {α : Type} (x : EStateM TableFault Registry α) : Handler α := fun u =>
  match x.run u.registry with
  | .ok a registry => .ok a { u with registry }
  | .error fault registry => .error (.table fault) { u with registry }

/-- Go on with an identifier, if it could be read. -/
def parsed {α : Type} : Except ParseError α → Handler α
  | .ok a => pure a
  | .error error => throw (.parse error)

/-- Put notices to the topology in order, up to the first that is refused, and tell what comes of them. -/
def announce (notices : List Notice) : Handler Unit := fun u =>
  match u.topology.heedAll notices with
  | (topology, events, none) => .ok () { u with topology, events := u.events ++ events }
  | (topology, events, some refusal) =>
    .error (.rejected refusal) { u with topology, events := u.events ++ events }

end Uptake

open Uptake

namespace Explicit

/-- The connect point under the explicit id of its device. -/
def point (p : ConnectPoint) : Except ParseError ConnectPoint := do
  return { p with device := ← p.device.toExplicit }

/-- Both ends of a link under the explicit ids of their devices. -/
def ends (e : Ends) : Except ParseError Ends := do
  let src ← point e.src
  let dst ← point e.dst
  return { src, dst }

/-- Take an element of a child up under the explicit abstraction. -/
def handle (child : String) : Element → Handler Unit
  | .device entry => do
    let id ← parsed entry.id.toExplicit
    onRegistry (·.setAlias id entry.id)
    onRegistry (·.setOwner id child)
    announce [.device { entry.toDevice with id }]
  | .link entry .added => do announce [.link (← parsed (ends entry.ends))]
  | .link entry .removed => do announce [.unlink (← parsed (ends entry.ends))]
  | .host entry => do
    let id ← parsed entry.hostId
    let location ← parsed (point entry.location)
    announce [.host { id, addresses := entry.ips, location }]

end Explicit

namespace Implicit

/-- Take an element of a child up under the implicit abstraction. -/
def handle (child : String) : Element → Handler Unit
  | .device entry => do
    let virtual := ChildAddress.virtualDevice child
    onRegistry (·.mapDevice entry.id virtual)
    onRegistry (·.setOwner virtual child)
    announce [.device (.switch virtual)]
  | .link entry .added => do
    let src ← onTables (Registry.virtualInPlace entry.ends.src.device)
    let dst ← onTables (Registry.virtualInPlace entry.ends.dst.device)
    if src = dst then return
    let link ← onTables (Registry.foldLinkInPlace entry.ends)
    announce [.link link, .link link.inverted]
  | .link entry .removed => do
    let (registry, carried) := (← get).registry.disconnectLink entry.ends
    onRegistry fun _ => registry
    match carried with
    | none => return
    | some link =>
      if registry.links.isUp link then return
      announce [.unlink link, .unlink link.inverted]
  | .host entry => do
    let id ← parsed entry.hostId
    let location ← onTables (Registry.exposePointInPlace entry.location)
    onRegistry fun r => (r.recordHost ⟨id, entry.location⟩ ⟨id, location⟩).1
    announce [.host { id, addresses := entry.ips, location }]

end Implicit

def Abstraction.handle : Abstraction → String → Element → Handler Unit
  | explicit => Explicit.handle
  | implicit => Implicit.handle

/-- How many elements of a document were applied, and how many skipped. -/
structure ApplyStats where
  applied : Nat := 0
  skipped : Nat := 0
  deriving DecidableEq, Repr, Inhabited

namespace Domain

def empty : Domain := {}

/-- Take an element up, and tell the fault if there was one. -/
def takeUp (mode : Abstraction) (child : String) (d : Domain) (e : Element) :
    Domain × List Event × Option ElementFault :=
  match (mode.handle child e).run { toDomain := d } with
  | .ok () u => (u.toDomain, u.events, none)
  | .error fault u => (u.toDomain, u.events, some fault)

/-- Read an element and take it up, and tell the fault if there was one. -/
def takeUpJson (mode : Abstraction) (child : String) (kind : ElementKind) (change : Change)
    (d : Domain) (value : Json) : Domain × List Event × Option ElementFault :=
  match Element.read? kind change value with
  | none => (d, [], some .malformed)
  | some e => d.takeUp mode child e

def takeUpAll (mode : Abstraction) (child : String) (kind : ElementKind) (change : Change) :
    List Json → Domain → Domain × List Event × ApplyStats
  | [], d => (d, [], {})
  | value :: rest, d =>
    let (d, now, fault) := d.takeUpJson mode child kind change value
    let (d, later, stats) := takeUpAll mode child kind change rest d
    (d, now ++ later,
      if fault.isSome then { stats with skipped := stats.skipped + 1 }
      else { stats with applied := stats.applied + 1 })

/-- Take up a document. Links added come before links deleted. -/
def apply (mode : Abstraction) (child : String) (d : Domain) :
    TopologyDocument → Domain × List Event × ApplyStats
  | .devices elements => takeUpAll mode child .device .added elements d
  | .links elements => takeUpAll mode child .link .added elements d
  | .hosts elements => takeUpAll mode child .host .added elements d
  | .edgeUpdates updates =>
    let (d, e₁, s₁) := takeUpAll mode child .link .added updates.added d
    let (d, e₂, s₂) := takeUpAll mode child .link .removed updates.deleted d
    (d, e₁ ++ e₂, ⟨s₁.applied + s₂.applied, s₁.skipped + s₂.skipped⟩)

end Domain

/-- A document that has been received, and whether it has been taken up. -/
structure Receipt where
  document : TopologyDocument
  spent : Bool := false

namespace Domain

/-- Take up a received document, unless that has been done. -/
def applyOnce (mode : Abstraction) (child : String) (d : Domain) (receipt : Receipt) :
    Receipt × Domain × List Event × ApplyStats :=
  match receipt.spent with
  | true => (receipt, d, [], {})
  | false => ({ receipt with spent := true }, d.apply mode child receipt.document)

/-- Take up the document that bytes hold. -/
def applyBytes (mode : Abstraction) (child : String) (d : Domain) (bytes : List UInt8) :
    Except DocumentFault (Domain × List Event × ApplyStats) :=
  (TopologyDocument.parse bytes).map fun document => (d.applyOnce mode child { document }).2

end Domain

end Multidomain
