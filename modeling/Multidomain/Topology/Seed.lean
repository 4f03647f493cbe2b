import Multidomain.Topology.Store
import Multidomain.Wire.Document
import Multidomain.Wire.Entry

/-!
# Seeding a topology

A node without children reads its devices, links and hosts from a document. Elements are handed over
in that order with their ids as written, a link in both directions; an element that is ill formed is
skipped and counted.
-/

namespace Multidomain

/-- The elements of a seed document, as they stand in it. -/
structure Seed where
  devices : List Json := []
  links : List Json := []
  hosts : List Json := []
  deriving BEq, Repr, Inhabited

/-- How many elements of each kind were handed over, and how many were skipped. -/
structure SeedSummary where
  devices : Nat := 0
  links : Nat := 0
  hosts : Nat := 0
  skipped : Nat := 0
  deriving DecidableEq, Repr, Inhabited

namespace Seed

def read? (value : Json) : Option Seed := do
  let r ← value.record? ["devices", "links", "hosts"]
  return {
    devices := ← r.defaulted "devices" [] (Json.list? Json.any?)
    links := ← r.defaulted "links" [] (Json.list? Json.any?)
    hosts := ← r.defaulted "hosts" [] (Json.list? Json.any?) }

def host? (value : Json) : Option Host := do
  let entry ← HostEntry.read? value
  let id ← entry.hostId.toOption
  return { id, addresses := entry.ips, location := entry.location }

def plantDevice (t : Topology) (d : DeviceEntry) : Topology × List Event :=
  t.connectDevice d.toDevice

/-- Hand a link over in both directions, the way back first. -/
def plantLink (t : Topology) (l : LinkEntry) : Topology × List Event :=
  let (t, back) := t.detectLink (Link.direct l.ends).reversed
  let (t, forth) := t.detectLink (.direct l.ends)
  (t, back ++ forth)

/-- Hand over the elements that can be read, and count them and the others. -/
def plantAll {α : Type} (read : Json → Option α)
    (plant : Topology → α → Topology × List Event) :
    List Json → Topology → Topology × List Event × Nat × Nat
  | [], t => (t, [], 0, 0)
  | value :: rest, t =>
    match read value with
    | some element =>
      let (t, now) := plant t element
      let (t, later, planted, skipped) := plantAll read plant rest t
      (t, now ++ later, planted + 1, skipped)
    | none =>
      let (t, later, planted, skipped) := plantAll read plant rest t
      (t, later, planted, skipped + 1)

def plant (s : Seed) (t : Topology) : Topology × List Event × SeedSummary :=
  let (t, e₁, devices, s₁) := plantAll DeviceEntry.read? plantDevice s.devices t
  let (t, e₂, links, s₂) := plantAll LinkEntry.read? plantLink s.links t
  let (t, e₃, hosts, s₃) := plantAll host? Topology.detectHost s.hosts t
  (t, e₁ ++ e₂ ++ e₃, { devices, links, hosts, skipped := s₁ + s₂ + s₃ })

end Seed

end Multidomain
