import Multidomain.Flow.Descriptor

/-!
# Flow rules

The form in which a forwarding rule is installed on a device, and its derivation from a descriptor.
A descriptor needs an output and at least one field to match; a missing output is reported first.
Two rules compete for one slot when they are on the same device and agree on priority and on the
list of fields; `FlowTables` holds one rule per slot, and the last one put wins.
-/

namespace Multidomain

structure FlowRule where
  device : DeviceId
  app : String
  priority : UInt32
  /-- Seconds without traffic after which the rule goes; none for a permanent one. -/
  idle : Option UInt64
  fields : List MatchField
  output : PortNumber
  deriving DecidableEq, Repr

/-- The place that a rule takes on its device. -/
structure FlowSlot where
  device : DeviceId
  priority : UInt32
  fields : List MatchField
  deriving DecidableEq, Repr

def FlowRule.slot (r : FlowRule) : FlowSlot := ⟨r.device, r.priority, r.fields⟩

/-- Why no rule can be made of a descriptor. -/
inductive FlowFault where
  | missingOutput (device : DeviceId)
  | emptySelector (device : DeviceId)
  deriving DecidableEq, Repr

def FlowFault.message : FlowFault → String
  | missingOutput device => "flow rule for " ++ device.text ++ " has no output instruction"
  | emptySelector device => "flow rule for " ++ device.text ++ " has no match criteria"

/-- The first output among the instructions. -/
def firstOutput? : List Instruction → Option PortNumber
  | .output port :: _ => some port
  | [] => none

def FlowDescriptor.toRule (d : FlowDescriptor) : Except FlowFault FlowRule :=
  match firstOutput? d.instructions with
  | none => .error (.missingOutput d.device)
  | some output =>
    if d.fields.isEmpty then .error (.emptySelector d.device)
    else .ok {
      device := d.device
      app := d.app
      priority := d.priority
      idle := if d.permanent ∨ d.timeout = 0 then none else some d.timeout.toUInt64
      fields := d.fields
      output }

/-- The rules of a list of descriptors as they travel; those that do not decode or make no rule are
passed over. -/
def FlowRule.ofJsonList (values : List Json) : List FlowRule :=
  values.filterMap fun value => do (← FlowDescriptor.read? value).toRule.toOption

/-- The installed rules of all devices, one per slot. -/
abbrev FlowTables := Roster FlowRule.slot

/-- The rules installed on a device, in the order in which their slots were first taken. -/
def FlowTables.on (tables : FlowTables) (device : DeviceId) : List FlowRule :=
  tables.items.filter fun r => r.device = device

end Multidomain
