import Multidomain.Table

/-!
# JSON values

The value that a JSON text denotes. Fields of an object are kept as they stand in the text,
repetitions included, since a reader of records has to tell a repeated field from a single one;
`canonical` gives the value in which the last of several fields of one name counts and fields are in
order of their names.

A part of a text can follow the grammar without denoting anything: a number that no double holds, a
text with half of a surrogate pair or with bytes that are no UTF-8, an array or object nested too
deep. Such a part is `illegible`. A reader that passes over the part does not mind it; a reader that
looks at it refuses it.
-/

namespace Multidomain

/-- A JSON number: a whole number of 64 bits, or the bits of a double. -/
inductive Number where
  | int (value : Int)
  | double (bits : UInt64)
  deriving DecidableEq, Repr, Inhabited

inductive Json where
  | null
  | bool (value : Bool)
  | number (value : Number)
  | string (value : String)
  | array (items : List Json)
  | object (fields : List (String × Json))
  /-- A part of a text that follows the grammar and denotes nothing. -/
  | illegible
  deriving BEq, Repr, Inhabited

namespace Json

def nat (n : Nat) : Json := .number (.int n)

mutual

/-- Whether the value has no illegible part. -/
def legible : Json → Bool
  | array items => legibleItems items
  | object fields => legibleFields fields
  | illegible => false
  | _ => true

def legibleItems : List Json → Bool
  | [] => true
  | item :: rest => legible item && legibleItems rest

def legibleFields : List (String × Json) → Bool
  | [] => true
  | (_, value) :: rest => legible value && legibleFields rest

end

mutual

/-- The value with the last of several fields of one name, and fields in order of their names. -/
def canonical : Json → Json
  | array items => array (canonicalItems items)
  | object fields =>
    object ((Table.ofList (canonicalFields fields)).items.mergeSort fun a b => a.1 ≤ b.1)
  | value => value

def canonicalItems : List Json → List Json
  | [] => []
  | item :: rest => canonical item :: canonicalItems rest

def canonicalFields : List (String × Json) → List (String × Json)
  | [] => []
  | (name, value) :: rest => (name, canonical value) :: canonicalFields rest

end

def field? (name : String) : Json → Option Json
  | object fields => fields.lookup name
  | _ => none

end Json

end Multidomain
