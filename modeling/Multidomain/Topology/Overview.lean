import Multidomain.Topology.Store
import Multidomain.Wire.Document
import Multidomain.Wire.Entry

/-!
# The overview that a node shows

A node shows its parent what it has heard of its own topology: its devices, its links, the links
that lead out of its devices, its hosts, and the links added and deleted since the parent last
looked. All of it is built from the events of the topology alone. Links are told apart by heading
here, so parallel links are one. A link leads out when one of its devices was not known as it was
added. Looking at the links or at the changes, in any view, begins a new period of changes.
-/

namespace Multidomain

/-- The views of the devices. -/
inductive DeviceView where
  | explicit | summary
  deriving DecidableEq, Repr, Inhabited

/-- The views of the links: all of them in full, all by their ends, those that lead out by their
ends. -/
inductive LinkView where
  | explicit | summary | implicit
  deriving DecidableEq, Repr, Inhabited

/-- The links added and deleted during a period. -/
structure ChangeLog where
  added : Roster Link.heading := .empty
  deleted : Roster Link.heading := .empty
  deriving DecidableEq, Repr, Inhabited

namespace ChangeLog

def empty : ChangeLog := {}

/-- A link was added: this takes back its deletion, if there was one. -/
def put (c : ChangeLog) (l : Link) : ChangeLog :=
  if c.deleted.contains l.heading then { c with deleted := c.deleted.erase l.heading }
  else { c with added := c.added.put l }

/-- A link was removed: this takes back its addition, if there was one. -/
def remove (c : ChangeLog) (l : Link) : ChangeLog :=
  if c.added.contains l.heading then { c with added := c.added.erase l.heading }
  else { c with deleted := c.deleted.put l }

end ChangeLog

/-- What a node has heard of its topology. -/
structure Overview where
  devices : Roster Device.id := .empty
  links : Roster Link.heading := .empty
  /-- The links that lead out. -/
  interlinks : Roster Link.heading := .empty
  hosts : Roster Host.id := .empty
  changes : ChangeLog := .empty
  /-- The changes among the links that lead out. -/
  interchanges : ChangeLog := .empty
  deriving DecidableEq, Repr, Inhabited

namespace Overview

def empty : Overview := {}

def knows (o : Overview) (device : DeviceId) : Bool := o.devices.contains device

/-- Whether a link leads out, as far as devices are known now. -/
def leadsOut (o : Overview) (l : Link) : Bool := !o.knows l.src.device || !o.knows l.dst.device

def putLink (o : Overview) (l : Link) : Overview :=
  let o' := { o with links := o.links.put l, changes := o.changes.put l }
  if o.leadsOut l then
    { o' with interlinks := o.interlinks.put l, interchanges := o.interchanges.put l }
  else o'

def removeLink (o : Overview) (l : Link) : Overview :=
  let o' := { o with links := o.links.erase l.heading, changes := o.changes.remove l }
  if o.interlinks.contains l.heading then
    { o' with
      interlinks := o.interlinks.erase l.heading
      interchanges := o.interchanges.remove l }
  else o'

def observe (o : Overview) : Event → Overview
  | .deviceAdded d => { o with devices := o.devices.put d }
  | .linkAdded l => o.putLink l
  | .linkRemoved l => o.removeLink l
  | .hostAdded h => { o with hosts := o.hosts.put h }
  | .hostMoved h _ => { o with hosts := o.hosts.put h }

def observeAll (o : Overview) (events : List Event) : Overview := events.foldl observe o

def clearChanges (o : Overview) : Overview := { o with changes := .empty, interchanges := .empty }

/-- The devices in a view, in order of their ids. -/
def deviceEntries (o : Overview) (view : DeviceView) : List DeviceEntry :=
  (o.devices.items.mergeSort fun a b => (compare a.id b.id).isLE).map fun d =>
    match view with
    | .explicit => .explicit d
    | .summary => .summary d

/-- Links in a view, in order of their ends. -/
def renderLinks (view : LinkView) (links : List Link) : List LinkEntry :=
  (links.mergeSort fun a b => (compare a.ends b.ends).isLE).map fun l =>
    match view with
    | .explicit => .explicit l
    | .summary | .implicit => .summary l

def linksOf (o : Overview) : LinkView → List Link
  | .implicit => o.interlinks.items
  | .explicit | .summary => o.links.items

def changesOf (o : Overview) : LinkView → ChangeLog
  | .implicit => o.interchanges
  | .explicit | .summary => o.changes

/-- The links in a view; a new period of changes begins. -/
def readLinks (o : Overview) (view : LinkView) : List LinkEntry × Overview :=
  (renderLinks view (o.linksOf view), o.clearChanges)

/-- The changes in a view; a new period of changes begins. -/
def takeEdgeUpdates (o : Overview) (view : LinkView) : EdgeUpdates × Overview :=
  let changes := o.changesOf view
  ({ added := (renderLinks view changes.added.items).map LinkEntry.toJson
     deleted := (renderLinks view changes.deleted.items).map LinkEntry.toJson },
   o.clearChanges)

/-- The hosts, in order of their written ids. -/
def hostEntries (o : Overview) : List HostEntry :=
  (o.hosts.items.mergeSort fun a b => (compare (toString a.id) (toString b.id)).isLE).map .ofHost

end Overview

end Multidomain
