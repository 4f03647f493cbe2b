import Multidomain.Json.Basic
import Multidomain.Text.Numeral
import Multidomain.Text.Shortest

/-!
# Writing JSON

The compact text of a value: no blanks, quotes, backslashes and control characters escaped and every
other character as it is. A double is written with the fewest digits that identify it, positionally
while its leading digit stands less than sixteen places before the point or at most five after it,
and with an exponent otherwise; a whole double keeps a zero after the point.
-/

namespace Multidomain.Json

/-- One character inside quotes. -/
def escape (c : Char) : String :=
  match c with
  | '"' => "\\\""
  | '\\' => "\\\\"
  | '\n' => "\\n"
  | '\r' => "\\r"
  | '\t' => "\\t"
  | '\x08' => "\\b"
  | '\x0c' => "\\f"
  | c =>
    if c.toNat < 0x20 then
      "\\u00" ++
        String.ofList [Text.lowerHexDigit (c.toNat / 16), Text.lowerHexDigit (c.toNat % 16)]
    else c.toString

def quote (s : String) : String := "\"" ++ String.join (s.toList.map escape) ++ "\""

/-- Digits `c · 10^k` of a positive double, laid out. -/
def layout (c : Nat) (k : Int) : String :=
  let digits := (Text.decimal c).toList
  let point := (digits.length : Int) + k
  if 0 ≤ k ∧ point ≤ 16 then
    String.ofList (digits ++ List.replicate k.toNat '0') ++ ".0"
  else if 0 < point ∧ point ≤ 16 then
    String.ofList (digits.take point.toNat ++ '.' :: digits.drop point.toNat)
  else if -5 < point ∧ point ≤ 0 then
    "0." ++ String.ofList (List.replicate (-point).toNat '0' ++ digits)
  else
    let mantissa := match digits with
      | [d] => [d]
      | d :: rest => d :: '.' :: rest
      | [] => []
    let exponent := point - 1
    String.ofList mantissa ++ "e" ++ (if exponent < 0 then "-" else "")
      ++ Text.decimal exponent.natAbs

/-- The text of the double with these bits. -/
def renderDouble (bits : UInt64) : String :=
  let signBit := Text.greatest 63 + 1
  let sign := if bits.toNat / signBit = 1 then "-" else ""
  if bits.toNat % signBit = 0 then sign ++ "0.0"
  else
    let (c, k) := Text.shortest bits
    sign ++ layout c k

def renderNumber : Number → String
  | .int value => (if value < 0 then "-" else "") ++ Text.decimal value.natAbs
  | .double bits => renderDouble bits

mutual

/-- The compact text of a value. -/
def render : Json → String
  | null => "null"
  | bool value => if value then "true" else "false"
  | number value => renderNumber value
  | string value => quote value
  | array items => "[" ++ renderItems items ++ "]"
  | object fields => "\x7b" ++ renderFields fields ++ "\x7d"
  | illegible => "null"

def renderItems : List Json → String
  | [] => ""
  | [item] => render item
  | item :: rest => render item ++ "," ++ renderItems rest

def renderFields : List (String × Json) → String
  | [] => ""
  | [(name, value)] => quote name ++ ":" ++ render value
  | (name, value) :: rest => quote name ++ ":" ++ render value ++ "," ++ renderFields rest

end

end Multidomain.Json
