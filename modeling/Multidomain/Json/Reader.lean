import Multidomain.Json.Basic
import Multidomain.Text.Numeral

/-!
# Reading JSON

A strict reader of JSON texts given as bytes: no byte order mark, no comments, no trailing commas,
nothing after the value. `parse?` answers `none` when the bytes do not follow the grammar. Parts
that follow it and denote nothing become `illegible`: texts that are no UTF-8 or hold half of a
surrogate pair, numbers beyond the range of doubles, and arrays or objects more than `deepest`
levels down.

A whole number that 64 bits hold is kept exactly, negative zero excepted. Every other number becomes
a double: as many leading digits as 64 bits hold are taken as a whole number, which is then scaled
by one power of ten.
-/

namespace Multidomain.Json

/-- How deep arrays and objects may nest and still denote something. -/
def deepest : Nat := 127

/-- Drop the blanks of JSON: space, tab, line feed, carriage return. -/
def skipBlanks (bs : List UInt8) : List UInt8 :=
  bs.dropWhile fun b => b = 0x20 || b = 0x09 || b = 0x0A || b = 0x0D

def isDigitByte (b : UInt8) : Bool := 0x30 ≤ b && b ≤ 0x39

def digitOfByte (b : UInt8) : Nat := b.toNat - 0x30

def hexByte? (b : UInt8) : Option Nat :=
  if 0x30 ≤ b && b ≤ 0x39 then some (b.toNat - 0x30)
  else if 0x41 ≤ b && b ≤ 0x46 then some (b.toNat - 0x37)
  else if 0x61 ≤ b && b ≤ 0x66 then some (b.toNat - 0x57)
  else none

/-- The text of UTF-8 bytes, given last byte first. -/
def textOfReversed? (reversed : List UInt8) : Option String :=
  String.fromUTF8? (ByteArray.mk reversed.reverse.toArray)

/-- The bytes of a scalar value, last byte first. -/
def reversedScalar (n : Nat) : List UInt8 := (String.utf8EncodeChar (Char.ofNat n)).reverse

/-- The byte that a letter after a backslash stands for. -/
def escapedByte? (b : UInt8) : Option UInt8 :=
  if b = 0x22 ∨ b = 0x5C ∨ b = 0x2F then some b
  else if b = 0x62 then some 0x08
  else if b = 0x66 then some 0x0C
  else if b = 0x6E then some 0x0A
  else if b = 0x72 then some 0x0D
  else if b = 0x74 then some 0x09
  else none

/-- Where a reader stands inside a quoted text. -/
inductive TextPlace where
  | plain
  | escaped
  /-- Inside the four hexadecimal digits of an escape: the value so far, and how many digits are
  still owed. -/
  | hex (value owed : Nat)

/-- What a quoted text denotes, and the bytes after its closing quote. `acc` holds the bytes of the
text so far, last first; `sound` is false once an unpaired half of a surrogate pair has been seen;
`high` is a first half that waits for its second. -/
def readText (acc : List UInt8) (sound : Bool) (high : Option Nat) :
    TextPlace → List UInt8 → Option (Option String × List UInt8)
  | _, [] => none
  | .plain, b :: rest =>
    if b = 0x22 then some (if sound && high.isNone then textOfReversed? acc else none, rest)
    else if b = 0x5C then readText acc sound high .escaped rest
    else if b < 0x20 then none
    else readText (b :: acc) (sound && high.isNone) none .plain rest
  | .escaped, b :: rest =>
    if b = 0x75 then readText acc sound high (.hex 0 4) rest
    else match escapedByte? b with
      | some p => readText (p :: acc) (sound && high.isNone) none .plain rest
      | none => none
  | .hex value owed, b :: rest =>
    match hexByte? b with
    | none => none
    | some d =>
      let value := value * 16 + d
      if 1 < owed then readText acc sound high (.hex value (owed - 1)) rest
      else
        let isHigh := 0xD800 ≤ value && value < 0xDC00
        let isLow := 0xDC00 ≤ value && value < 0xE000
        match high, isHigh, isLow with
        | some h, _, true =>
          let scalar := 0x10000 + (h - 0xD800) * 0x400 + (value - 0xDC00)
          readText (reversedScalar scalar ++ acc) sound none .plain rest
        | some _, _, false => readText acc false none .plain rest
        | none, true, _ => readText acc sound (some value) .plain rest
        | none, false, true => readText acc false none .plain rest
        | none, false, false => readText (reversedScalar value ++ acc) sound none .plain rest

/-- The digits of a number as they stand in the text. -/
structure Numeral where
  negative : Bool
  whole : List Nat
  fraction : Option (List Nat)
  /-- Whether the exponent is negative, and its digits. -/
  exponent : Option (Bool × List Nat)

/-- The run of digits at the start, which must not be empty. -/
def readDigitRun (bs : List UInt8) : Option (List Nat × List UInt8) :=
  let digits := bs.takeWhile isDigitByte
  if digits.isEmpty then none else some (digits.map digitOfByte, bs.dropWhile isDigitByte)

/-- Drop the byte `b` from the start, if it is there. -/
def dropByte? (b : UInt8) : List UInt8 → Option (List UInt8)
  | [] => none
  | c :: rest => if c = b then some rest else none

def readFraction (bs : List UInt8) : Option (Option (List Nat) × List UInt8) :=
  match dropByte? 0x2E bs with
  | none => some (none, bs)
  | some rest => (readDigitRun rest).map fun (ds, after) => (some ds, after)

def readExponent (bs : List UInt8) : Option (Option (Bool × List Nat) × List UInt8) :=
  match (dropByte? 0x65 bs).orElse fun _ => dropByte? 0x45 bs with
  | none => some (none, bs)
  | some rest =>
    let (down, rest) := match dropByte? 0x2B rest, dropByte? 0x2D rest with
      | some after, _ => (false, after)
      | none, some after => (true, after)
      | none, none => (false, rest)
    (readDigitRun rest).map fun (ds, after) => (some (down, ds), after)

/-- The numeral at the start. A whole part of several digits does not start with zero. -/
def readNumeral (bs : List UInt8) : Option (Numeral × List UInt8) := do
  let (negative, bs) := match dropByte? 0x2D bs with
    | some rest => (true, rest)
    | none => (false, bs)
  let (whole, bs) ← readDigitRun bs
  if whole.head? = some 0 ∧ whole.length ≠ 1 then none
  let (fraction, bs) ← readFraction bs
  let (exponent, bs) ← readExponent bs
  return (⟨negative, whole, fraction, exponent⟩, bs)

/-- The leading digits that 64 bits hold, as a number, and how many digits are left over. -/
def leadingWord : Nat → List Nat → Nat × Nat
  | acc, [] => (acc, 0)
  | acc, d :: rest =>
    if Text.greatest 64 < acc * 10 + d then (acc, rest.length + 1)
    else leadingWord (acc * 10 + d) rest

/-- The digits of a fraction added to a number while 64 bits hold it, and how many were added. -/
def addFraction : Nat → List Nat → Nat × Nat
  | acc, [] => (acc, 0)
  | acc, d :: rest =>
    if Text.greatest 64 < acc * 10 + d then (acc, 0)
    else
      let (total, used) := addFraction (acc * 10 + d) rest
      (total, used + 1)

/-- `f` scaled by a power of ten; `none` beyond the range of doubles. -/
def scaleByTen (f : Float) (power : Int) : Nat → Option Float
  | 0 => some f
  | fuel + 1 =>
    if power.natAbs ≤ 308 then
      if 0 ≤ power then
        let scaled := f * Float.ofScientific 1 false power.natAbs
        if scaled.isInf then none else some scaled
      else some (f / Float.ofScientific 1 false power.natAbs)
    else if f == 0 then some f
    else if 0 ≤ power then none
    else scaleByTen (f / Float.ofScientific 1 false 308) (power + 308) fuel

/-- The number that a numeral denotes; `none` beyond the range of doubles. -/
def Numeral.value? (n : Numeral) : Option Number :=
  let (word, dropped) := leadingWord 0 n.whole
  let signed (f : Float) : Number := .double (if n.negative then -f else f).toBits
  match n.fraction, n.exponent with
  | none, none =>
    if dropped ≠ 0 then (scaleByTen (UInt64.ofNat word).toFloat dropped 4).map signed
    else if ¬ n.negative then some (.int word)
    else if 1 ≤ word ∧ word ≤ Text.greatest 63 + 1 then some (.int (-(word : Int)))
    else some (signed (UInt64.ofNat word).toFloat)
  | fraction, exponent =>
    let (word, used) := addFraction word (fraction.getD [])
    let start : Int := (dropped : Int) - (used : Int)
    let (down, digits) := exponent.getD (false, [])
    let power : Nat := digits.foldl (fun acc d => acc * 10 + d) 0
    if Text.greatest 31 < power then
      if word ≠ 0 ∧ ¬ down then none else some (signed 0)
    else
      let power : Int := if down then start - (power : Int) else start + (power : Int)
      (scaleByTen (UInt64.ofNat word).toFloat power 4).map signed

def numberOrIllegible : Option Number → Json
  | some n => number n
  | none => illegible

def textOrIllegible : Option String → Json
  | some s => string s
  | none => illegible

def fieldsOrIllegible : Option (List (String × Json)) → Json
  | some fields => object fields
  | none => illegible

def withField (name? : Option String) (value : Json)
    (fields? : Option (List (String × Json))) : Option (List (String × Json)) :=
  name?.bind fun name => fields?.map fun fields => (name, value) :: fields

/-- The rest after the bytes of a word, if the bytes start with it. -/
def readWord : List UInt8 → List UInt8 → Option (List UInt8)
  | [], bs => some bs
  | w :: ws, b :: bs => if w = b then readWord ws bs else none
  | _ :: _, [] => none

mutual

/-- The value at the start, blanks before it skipped, and the bytes after it. `room` is the number
of levels that may still be opened; `fuel` exceeds the number of bytes twice over. -/
def readValue (room : Nat) : Nat → List UInt8 → Option (Json × List UInt8)
  | 0, _ => none
  | fuel + 1, bs =>
    let bs := skipBlanks bs
    match bs with
    | [] => none
    | b :: rest =>
      if b = 0x22 then
        (readText [] true none .plain rest).map fun (s?, after) => (textOrIllegible s?, after)
      else if b = 0x5B then
        match dropByte? 0x5D (skipBlanks rest) with
        | some after => some (if room = 0 then illegible else array [], after)
        | none => (readItems (room - 1) fuel rest).map fun (items, after) =>
          (if room = 0 then illegible else array items, after)
      else if b = 0x7B then
        match dropByte? 0x7D (skipBlanks rest) with
        | some after => some (if room = 0 then illegible else object [], after)
        | none => (readFields (room - 1) fuel rest).map fun (fields?, after) =>
          (if room = 0 then illegible else fieldsOrIllegible fields?, after)
      else if b = 0x74 then
        (readWord [0x72, 0x75, 0x65] rest).map fun after => (bool true, after)
      else if b = 0x66 then
        (readWord [0x61, 0x6C, 0x73, 0x65] rest).map fun after => (bool false, after)
      else if b = 0x6E then
        (readWord [0x75, 0x6C, 0x6C] rest).map fun after => (null, after)
      else (readNumeral bs).map fun (n, after) => (numberOrIllegible n.value?, after)

/-- The items up to the closing bracket, at least one. -/
def readItems (room : Nat) : Nat → List UInt8 → Option (List Json × List UInt8)
  | 0, _ => none
  | fuel + 1, bs =>
    match readValue room fuel bs with
    | none => none
    | some (item, bs) =>
      let bs := skipBlanks bs
      match dropByte? 0x2C bs, dropByte? 0x5D bs with
      | some rest, _ => (readItems room fuel rest).map fun (items, after) => (item :: items, after)
      | none, some after => some ([item], after)
      | none, none => none

/-- The fields up to the closing brace, at least one; no fields where a name denotes nothing. -/
def readFields (room : Nat) : Nat → List UInt8 → Option (Option (List (String × Json)) × List UInt8)
  | 0, _ => none
  | fuel + 1, bs => do
    let (name?, bs) ← readText [] true none .plain (← dropByte? 0x22 (skipBlanks bs))
    let (value, bs) ← readValue room fuel (← dropByte? 0x3A (skipBlanks bs))
    let bs := skipBlanks bs
    match dropByte? 0x2C bs, dropByte? 0x7D bs with
    | some rest, _ =>
      let (fields?, after) ← readFields room fuel rest
      return (withField name? value fields?, after)
    | none, some after => return (withField name? value (some []), after)
    | none, none => none

end

/-- The value of a JSON text. -/
def parse? (bytes : List UInt8) : Option Json :=
  match readValue deepest (2 * bytes.length + 2) bytes with
  | some (value, after) => if (skipBlanks after).isEmpty then some value else none
  | none => none

def bytesOf (s : String) : List UInt8 := s.toUTF8.data.toList

def ofText? (s : String) : Option Json := parse? (bytesOf s)

end Multidomain.Json
