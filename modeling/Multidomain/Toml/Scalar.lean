import Multidomain.Text.Numeral

/-!
# Bare scalars of TOML

The written forms of integers, floating-point numbers, dates and times. Digits may be grouped by
single underscores, a decimal number of several digits does not start with zero, and an integer has
to fit 64 bits. A positive number that no double is near is not read; a negative one is.
-/

namespace Multidomain.TomlScalar

/-- The digits of a run in which single underscores may stand between digits. -/
def ungroup (isDigit : Char → Bool) : List Char → Option (List Char)
  | [] => none
  | [c] => if isDigit c then some [c] else none
  | c :: '_' :: rest => if isDigit c then (ungroup isDigit rest).map (c :: ·) else none
  | c :: rest => if isDigit c then (ungroup isDigit rest).map (c :: ·) else none

/-- The digits of a decimal number without leading zeros. -/
def wholeDigits? (cs : List Char) : Option (List Char) :=
  match ungroup Char.isDigit cs with
  | some ('0' :: _ :: _) => none
  | digits => digits

/-- A sign, if there is one, and what follows it. -/
def splitSign : List Char → Bool × List Char
  | '-' :: rest => (true, rest)
  | '+' :: rest => (false, rest)
  | cs => (false, cs)

private def isHexDigit (c : Char) : Bool := (Text.digitValue? 16 c).isSome

private def isOctalDigit (c : Char) : Bool := (Text.digitValue? 8 c).isSome

private def isBinaryDigit (c : Char) : Bool := (Text.digitValue? 2 c).isSome

/-- An integer of 64 bits. -/
def integer? (cs : List Char) : Option Int :=
  let unsigned (base : Nat) (isDigit : Char → Bool) (digits : List Char) : Option Int := do
    let n ← Text.readDigits base 0 (← ungroup isDigit digits)
    if n ≤ Text.greatest 63 then some (n : Int) else none
  match cs with
  | '0' :: 'x' :: rest => unsigned 16 isHexDigit rest
  | '0' :: 'o' :: rest => unsigned 8 isOctalDigit rest
  | '0' :: 'b' :: rest => unsigned 2 isBinaryDigit rest
  | cs => do
    let (negative, rest) := splitSign cs
    let n ← Text.readDigits 10 0 (← wholeDigits? rest)
    if negative then if n ≤ Text.greatest 63 + 1 then some (-(n : Int)) else none
    else if n ≤ Text.greatest 63 then some (n : Int) else none

private def isExponentMark (c : Char) : Bool := c = 'e' || c = 'E'

/-- The digits and the power of ten of a number with a point or an exponent. -/
def decimal? (cs : List Char) : Option (List Char × Int) := do
  let number := cs.takeWhile (!isExponentMark ·)
  let exponent ← match cs.dropWhile (!isExponentMark ·) with
    | [] => some 0
    | _ :: rest => do
      let (negative, rest) := splitSign rest
      let n ← Text.readDigits 10 0 (← ungroup Char.isDigit rest)
      some (if negative then -(n : Int) else n)
  match Text.splitAt '.' number with
  | [whole] => if number.length < cs.length then (wholeDigits? whole).map (·, exponent) else none
  | [whole, fraction] => do
    let whole ← wholeDigits? whole
    let fraction ← ungroup Char.isDigit fraction
    some (whole ++ fraction, exponent - fraction.length)
  | _ => none

/-- Halfway from the greatest double to the power of two after it: from here on numbers round to
infinity. It has 309 digits. -/
def beyondDoubles : Nat := (Nat.pow 2 54 - 1) * Nat.pow 2 970

/-- Whether the number of these digits and this power of ten rounds to infinity. The number of its
digits before the point decides, except where it is that of `beyondDoubles`. -/
def isBeyondDoubles (digits : List Char) (power : Int) : Bool :=
  let digits := digits.dropWhile (· = '0')
  match Text.readDigits 10 0 digits with
  | none => false
  | some 0 => false
  | some n =>
    let before := digits.length + power
    if before = 309 then
      beyondDoubles * Nat.pow 10 (-power).toNat ≤ n * Nat.pow 10 power.toNat
    else 309 < before

/-- Whether the characters are a floating-point number. -/
def isFloat (cs : List Char) : Bool :=
  let (negative, cs) := splitSign cs
  if cs = ['i', 'n', 'f'] ∨ cs = ['n', 'a', 'n'] then true
  else match decimal? cs with
    | some (digits, power) => negative || !isBeyondDoubles digits power
    | none => false

/-- A number of exactly `width` digits in a range. -/
def field? (width low high : Nat) (cs : List Char) : Option Nat :=
  if cs.length = width ∧ cs.all Char.isDigit then
    (Text.readDigits 10 0 cs).filter fun n => low ≤ n && n ≤ high
  else none

private def daysIn (year month : Nat) : Nat :=
  if month = 2 then
    if year % 4 = 0 ∧ (year % 100 ≠ 0 ∨ year % 400 = 0) then 29 else 28
  else if month = 4 ∨ month = 6 ∨ month = 9 ∨ month = 11 then 30 else 31

/-- Whether the characters are a date. -/
def isDate (cs : List Char) : Bool :=
  match Text.splitAt '-' cs with
  | [y, m, d] =>
    match field? 4 0 9999 y, field? 2 1 12 m with
    | some year, some month => (field? 2 1 (daysIn year month) d).isSome
    | _, _ => false
  | _ => false

/-- Whether the characters are a time of day. -/
def isTime (cs : List Char) : Bool :=
  match Text.splitAt ':' cs with
  | [h, m, s] =>
    let secondsOk := match Text.splitAt '.' s with
      | [whole] => (field? 2 0 60 whole).isSome
      | [whole, fraction] =>
        (field? 2 0 60 whole).isSome && !fraction.isEmpty && fraction.all Char.isDigit
      | _ => false
    (field? 2 0 23 h).isSome && (field? 2 0 59 m).isSome && secondsOk
  | _ => false

/-- Whether the characters are a time of day, possibly with an offset. -/
def isOffsetTime (cs : List Char) : Bool :=
  match cs.reverse with
  | 'Z' :: rest => isTime rest.reverse
  | 'z' :: rest => isTime rest.reverse
  | m₂ :: m₁ :: ':' :: h₂ :: h₁ :: sign :: rest =>
    if sign = '+' ∨ sign = '-' then
      (field? 2 0 23 [h₁, h₂]).isSome && (field? 2 0 59 [m₁, m₂]).isSome && isTime rest.reverse
    else isTime cs
  | _ => isTime cs

/-- Whether the characters are a date, a time, or a date and a time joined by `T`. -/
def isMoment (cs : List Char) : Bool :=
  isDate cs || isTime cs ||
    (isDate (cs.take 10) && match cs.drop 10 with
      | c :: rest => (c = 'T' || c = 't') && isOffsetTime rest
      | [] => false)

end Multidomain.TomlScalar
