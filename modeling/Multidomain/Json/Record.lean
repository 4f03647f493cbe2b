import Multidomain.Json.Basic
import Multidomain.Text.Numeral

/-!
# Records in JSON

How typed values are read from JSON. A record is an object, or an array that lists the record's
fields in their declared order; unknown fields of an object are passed over, a declared field may
stand there only once, and an array may break off early but not run on. A field is required,
optional (absent or null) or has a default that stands in for an absent field alone. A choice among
words is the word itself, or an object whose only field is the word with the value null. A tagged
record names its form in the field `type`, or as the first item of an array.
-/

namespace Multidomain.Json

/-- The values of a record by the names of its fields. -/
abbrev Record := List (String × Json)

def record? (names : List String) : Json → Option Record
  | object fields =>
    if names.all fun name => (fields.filter fun f => f.1 = name).length ≤ 1 then some fields
    else none
  | array items => if items.length ≤ names.length then some (names.zip items) else none
  | _ => none

namespace Record

variable {α : Type}

def required (r : Record) (name : String) (read : Json → Option α) : Option α :=
  (r.lookup name).bind read

def optional (r : Record) (name : String) (read : Json → Option α) : Option (Option α) :=
  match r.lookup name with
  | none => some none
  | some null => some none
  | some value => (read value).map some

/-- A field with a value that stands in when it is absent. -/
def defaulted (r : Record) (name : String) (standIn : α) (read : Json → Option α) : Option α :=
  match r.lookup name with
  | none => some standIn
  | some value => read value

end Record

def text? : Json → Option String
  | string s => some s
  | _ => none

def bool? : Json → Option Bool
  | bool b => some b
  | _ => none

/-- A whole number from zero to `limit`. -/
def nat? (limit : Nat) : Json → Option Nat
  | number (.int value) => if 0 ≤ value ∧ value.toNat ≤ limit then some value.toNat else none
  | _ => none

def list? {α : Type} (read : Json → Option α) : Json → Option (List α)
  | array items => items.mapM read
  | _ => none

/-- Any value, taken in its canonical form. -/
def any? (value : Json) : Option Json := if value.legible then some value.canonical else none

/-- A table of texts, the last of several entries of one name counting. -/
def texts? : Json → Option (Table String String)
  | object fields =>
    (fields.mapM fun f => (text? f.2).map fun s => (f.1, s)).map Table.ofList
  | _ => none

def word? : Json → Option String
  | string s => some s
  | object [(name, null)] => some name
  | _ => none

/-- A number of 64 bits, or a text that holds one in decimal, blanks around it ignored. -/
def lenient64? : Json → Option UInt64
  | string s => (Text.readDecimal (Text.greatest 64) (Text.trim s)).map UInt64.ofNat
  | value => (nat? (Text.greatest 64) value).map UInt64.ofNat

/-- The name of a tagged record's form, and the record without it. -/
def tagged? (value : Json) : Option (String × Json) :=
  if value.legible then
    match value with
    | object fields =>
      match fields.filter fun f => f.1 = "type" with
      | [(_, string tag)] => some (tag, object (fields.filter fun f => f.1 ≠ "type"))
      | _ => none
    | array (string tag :: items) => some (tag, array items)
    | _ => none
  else none

/-- An object from fields of which some may be absent. -/
def ofFields (fields : List (String × Option Json)) : Json :=
  object (fields.filterMap fun (name, value?) => value?.map fun value => (name, value))

end Multidomain.Json
