import Multidomain.Element.Basic
import Multidomain.Json.Record
import Multidomain.Orchestration.Abstraction

/-!
# Entries of topology documents

The forms in which devices, links and hosts travel between nodes. Each form has a reader and a
writer, and `read?` gives back what `toJson` wrote. An entry keeps what was sent: the Ethernet
address and the VLAN of a host stay texts, so that a bad one is a fault of that entry alone.

Where they stand alone, ids and addresses are texts, and a word may also be an object with the word as
its only field.
-/

namespace Multidomain

def DeviceId.read? (value : Json) : Option DeviceId := value.text?.map DeviceId.mk

def Mac.read? (value : Json) : Option Mac := value.text?.bind fun s => (Mac.parse s).toOption

def Vlan.read? (value : Json) : Option Vlan := value.text?.bind fun s => (Vlan.parse s).toOption

def DeviceKind.read? (value : Json) : Option DeviceKind := value.word?.bind DeviceKind.ofName?

def MastershipRole.read? (value : Json) : Option MastershipRole :=
  value.word?.bind MastershipRole.ofName?

def LinkType.read? (value : Json) : Option LinkType := value.word?.bind LinkType.ofName?

def LinkState.read? (value : Json) : Option LinkState := value.word?.bind LinkState.ofName?

def Abstraction.read? (value : Json) : Option Abstraction := value.word?.bind Abstraction.ofName?

def ConnectPoint.toJson (p : ConnectPoint) : Json :=
  .object [("device", .string p.device.text), ("port", .nat p.port.toNat)]

def ConnectPoint.read? (value : Json) : Option ConnectPoint := do
  let r ← value.record? ["device", "port"]
  return {
    device := ← r.required "device" DeviceId.read?
    port := ← r.required "port" Json.lenient64? }

/-- A device as it travels; all but the id may be left out. -/
structure DeviceEntry where
  id : DeviceId
  kind : Option String := none
  available : Option Bool := none
  role : Option String := none
  manufacturer : Option String := none
  hardware : Option String := none
  software : Option String := none
  serial : Option String := none
  chassis : Option String := none
  annotations : Option (Table String String) := none
  deriving DecidableEq, Repr, Inhabited

namespace DeviceEntry

def names : List String :=
  ["id", "type", "available", "role", "mfr", "hw", "sw", "serial", "chassisId", "annotations"]

def toJson (d : DeviceEntry) : Json := .ofFields
  [("id", some (.string d.id.text)), ("type", d.kind.map .string),
   ("available", d.available.map .bool), ("role", d.role.map .string),
   ("mfr", d.manufacturer.map .string), ("hw", d.hardware.map .string),
   ("sw", d.software.map .string), ("serial", d.serial.map .string),
   ("chassisId", d.chassis.map .string),
   ("annotations", d.annotations.map fun t => .object (t.items.map fun (k, v) => (k, .string v)))]

def read? (value : Json) : Option DeviceEntry := do
  let r ← value.record? names
  return {
    id := ← r.required "id" DeviceId.read?
    kind := ← r.optional "type" Json.text?
    available := ← r.optional "available" Json.bool?
    role := ← r.optional "role" Json.text?
    manufacturer := ← r.optional "mfr" Json.text?
    hardware := ← r.optional "hw" Json.text?
    software := ← r.optional "sw" Json.text?
    serial := ← r.optional "serial" Json.text?
    chassis := ← r.optional "chassisId" Json.text?
    annotations := ← r.optional "annotations" Json.texts? }

/-- The kind that a word stands for; a device without one is a switch, and an unknown word is
another kind. -/
def kindOfWord : Option String → DeviceKind
  | none => .switch
  | some word => (DeviceKind.ofName? word).getD .other

/-- The device that the entry describes. What is left out is as for a bare switch; availability and
role are not taken over. -/
def toDevice (d : DeviceEntry) : Device :=
  let bare := Device.switch d.id
  { bare with
    kind := kindOfWord d.kind
    manufacturer := d.manufacturer.getD bare.manufacturer
    hardware := d.hardware.getD bare.hardware
    software := d.software.getD bare.software
    serial := d.serial.getD bare.serial
    chassis := d.chassis.getD bare.chassis
    annotations := d.annotations.getD bare.annotations }

def explicit (d : Device) : DeviceEntry where
  id := d.id
  kind := some d.kind.name
  available := some d.available
  role := some d.role.name
  manufacturer := some d.manufacturer
  hardware := some d.hardware
  software := some d.software
  serial := some d.serial
  chassis := some d.chassis
  annotations := some d.annotations

def summary (d : Device) : DeviceEntry where
  id := d.id

end DeviceEntry

structure LinkEntry where
  ends : Ends
  kind : Option String := none
  state : Option String := none
  deriving DecidableEq, Repr, Inhabited

namespace LinkEntry

def toJson (l : LinkEntry) : Json := .ofFields
  [("src", some l.ends.src.toJson), ("dst", some l.ends.dst.toJson), ("type", l.kind.map .string),
   ("state", l.state.map .string)]

def read? (value : Json) : Option LinkEntry := do
  let r ← value.record? ["src", "dst", "type", "state"]
  return {
    ends := ⟨← r.required "src" ConnectPoint.read?, ← r.required "dst" ConnectPoint.read?⟩
    kind := ← r.optional "type" Json.text?
    state := ← r.optional "state" Json.text? }

def explicit (l : Link) : LinkEntry where
  ends := l.ends
  kind := some l.kind.name
  state := some l.state.name

def summary (l : Link) : LinkEntry where
  ends := l.ends

end LinkEntry

structure HostEntry where
  id : Option String := none
  mac : String
  vlan : String
  addresses : List String := []
  location : ConnectPoint
  deriving DecidableEq, Repr, Inhabited

namespace HostEntry

/-- Where a host is attached, as it travels. -/
def locationToJson (p : ConnectPoint) : Json :=
  .object [("elementId", .string p.device.text), ("port", .nat p.port.toNat)]

def readLocation? (value : Json) : Option ConnectPoint := do
  let r ← value.record? ["elementId", "port"]
  return {
    device := ← r.required "elementId" DeviceId.read?
    port := ← r.required "port" Json.lenient64? }

def toJson (h : HostEntry) : Json := .ofFields
  [("id", h.id.map .string), ("mac", some (.string h.mac)), ("vlan", some (.string h.vlan)),
   ("ipAddress", some (.array (h.addresses.map .string))),
   ("location", some (locationToJson h.location))]

def read? (value : Json) : Option HostEntry := do
  let r ← value.record? ["id", "mac", "vlan", "ipAddress", "location"]
  return {
    id := ← r.optional "id" Json.text?
    mac := ← r.required "mac" Json.text?
    vlan := ← r.required "vlan" Json.text?
    addresses := ← r.defaulted "ipAddress" [] (Json.list? Json.text?)
    location := ← r.required "location" readLocation? }

/-- The identity of the host; a bad Ethernet address is reported before a bad VLAN. -/
def hostId (h : HostEntry) : Except ParseError HostId := do
  let mac ← Mac.parse h.mac
  let vlan ← Vlan.parse h.vlan
  return { mac, vlan }

/-- The addresses that are well formed; the others are passed over. -/
def ips (h : HostEntry) : List Ip := h.addresses.filterMap Ip.parse?

def ofHost (h : Host) : HostEntry where
  id := some (toString h.id)
  mac := toString h.id.mac
  vlan := toString h.id.vlan
  addresses := h.addresses.map toString
  location := h.location

end HostEntry

end Multidomain
