import Multidomain.Wire.Entry

/-!
# Flow rule descriptors

The form in which a forwarding rule travels between nodes: what a frame has to match, where it goes
out, how urgent the rule is and how long it lasts unused. Ports are written as texts and read as
texts or numbers.
-/

namespace Multidomain

inductive MatchField where
  | inPort (port : PortNumber)
  | ethSrc (mac : Mac)
  | ethDst (mac : Mac)
  deriving DecidableEq, Repr

inductive Instruction where
  | output (port : PortNumber)
  deriving DecidableEq, Repr

def portText (port : PortNumber) : Json := .string (Text.decimal port.toNat)

namespace MatchField

def toJson : MatchField → Json
  | inPort port => .object [("type", .string "IN_PORT"), ("port", portText port)]
  | ethSrc mac => .object [("type", .string "ETH_SRC"), ("mac", .string (toString mac))]
  | ethDst mac => .object [("type", .string "ETH_DST"), ("mac", .string (toString mac))]

end MatchField

def MatchField.read? (value : Json) : Option MatchField := do
  let (tag, content) ← value.tagged?
  match tag with
  | "IN_PORT" => return .inPort (← (← content.record? ["port"]).required "port" Json.lenient64?)
  | "ETH_SRC" => return .ethSrc (← (← content.record? ["mac"]).required "mac" Mac.read?)
  | "ETH_DST" => return .ethDst (← (← content.record? ["mac"]).required "mac" Mac.read?)
  | _ => none

def Instruction.toJson : Instruction → Json
  | output port => .object [("type", .string "OUTPUT"), ("port", portText port)]

def Instruction.read? (value : Json) : Option Instruction := do
  let (tag, content) ← value.tagged?
  match tag with
  | "OUTPUT" => return .output (← (← content.record? ["port"]).required "port" Json.lenient64?)
  | _ => none

def treatmentToJson (instructions : List Instruction) : Json :=
  .object [("instructions", .array (instructions.map Instruction.toJson))]

def readTreatment? (value : Json) : Option (List Instruction) := do
  (← value.record? ["instructions"]).required "instructions" (Json.list? Instruction.read?)

def selectorToJson (fields : List MatchField) : Json :=
  .object [("criteria", .array (fields.map MatchField.toJson))]

def readSelector? (value : Json) : Option (List MatchField) := do
  (← value.record? ["criteria"]).required "criteria" (Json.list? MatchField.read?)

/-- A forwarding rule as it travels. -/
structure FlowDescriptor where
  priority : UInt32
  /-- Seconds without traffic after which the rule goes. -/
  timeout : UInt32
  /-- Whether the rule stays whatever the timeout says. -/
  permanent : Bool
  device : DeviceId
  app : String
  instructions : List Instruction
  fields : List MatchField
  deriving DecidableEq, Repr

namespace FlowDescriptor

/-- A rule with one output; it is permanent exactly when its timeout is zero. -/
def forwarding (device : DeviceId) (app : String) (priority timeout : UInt32)
    (fields : List MatchField) (output : PortNumber) : FlowDescriptor where
  priority := priority
  timeout := timeout
  permanent := timeout = 0
  device := device
  app := app
  instructions := [.output output]
  fields := fields

def names : List String :=
  ["priority", "timeout", "isPermanent", "deviceId", "appId", "treatment", "selector"]

def toJson (d : FlowDescriptor) : Json := .object
  [("priority", .nat d.priority.toNat), ("timeout", .nat d.timeout.toNat),
   ("isPermanent", .bool d.permanent), ("deviceId", .string d.device.text),
   ("appId", .string d.app),
   ("treatment", treatmentToJson d.instructions), ("selector", selectorToJson d.fields)]

def readWord? (value : Json) : Option UInt32 := (value.nat? (Text.greatest 32)).map UInt32.ofNat

def read? (value : Json) : Option FlowDescriptor := do
  let r ← value.record? names
  return {
    priority := ← r.required "priority" readWord?
    timeout := ← r.required "timeout" readWord?
    permanent := ← r.required "isPermanent" Json.bool?
    device := ← r.required "deviceId" DeviceId.read?
    app := ← r.required "appId" Json.text?
    instructions := ← r.required "treatment" readTreatment?
    fields := ← r.required "selector" readSelector? }

end FlowDescriptor

end Multidomain
