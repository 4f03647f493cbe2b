/-!
# Blanks and numerals

The characters with the Unicode property White_Space, and the removal of them from both ends of a
text; reading unsigned whole numbers in a given base, with an optional plus sign and any number of
leading zeros, and writing them in decimal or in pairs of hexadecimal digits. A numeral that exceeds
the stated limit is not read at all.
-/

namespace Multidomain.Text

/-- The property White_Space: the controls from tab to carriage return, next line, and the space
separators. -/
def isBlank (c : Char) : Bool :=
  let n := c.toNat
  (0x09 ≤ n && n ≤ 0x0D) || n == 0x20 || n == 0x85 || n == 0xA0 || n == 0x1680
    || (0x2000 ≤ n && n ≤ 0x200A) || n == 0x2028 || n == 0x2029 || n == 0x202F || n == 0x205F
    || n == 0x3000

/-- A text without the blanks at its two ends. -/
def trimChars (cs : List Char) : List Char :=
  ((cs.dropWhile isBlank).reverse.dropWhile isBlank).reverse

def trim (s : String) : String := String.ofList (trimChars s.toList)

/-- The greatest number that so many bits hold. -/
def greatest (bits : Nat) : Nat := Nat.pow 2 bits - 1

/-- The value of a digit below `base`, letters of either case standing for ten and above. -/
def digitValue? (base : Nat) (c : Char) : Option Nat :=
  let value? :=
    if '0' ≤ c ∧ c ≤ '9' then some (c.toNat - '0'.toNat)
    else if 'a' ≤ c ∧ c ≤ 'z' then some (c.toNat - 'a'.toNat + 10)
    else if 'A' ≤ c ∧ c ≤ 'Z' then some (c.toNat - 'A'.toNat + 10)
    else none
  value?.filter (· < base)

/-- The value of a run of digits, `acc` holding the digits before it. -/
def readDigits (base : Nat) : Nat → List Char → Option Nat
  | acc, [] => some acc
  | acc, c :: rest => (digitValue? base c).bind fun d => readDigits base (acc * base + d) rest

/-- An unsigned number of at least one digit and at most `limit`, a plus sign allowed before it. -/
def readNumber (base limit : Nat) (cs : List Char) : Option Nat :=
  let digits := match cs with
    | '+' :: rest => rest
    | _ => cs
  if digits.isEmpty then none else (readDigits base 0 digits).filter (· ≤ limit)

def readDecimal (limit : Nat) (s : String) : Option Nat := readNumber 10 limit s.toList

/-- A signed decimal number, its sign optional. -/
def readSigned (s : String) : Option Int :=
  match s.toList with
  | '-' :: rest => if rest.isEmpty then none else (readDigits 10 0 rest).map fun n => -(n : Int)
  | '+' :: rest => if rest.isEmpty then none else (readDigits 10 0 rest).map Int.ofNat
  | cs => if cs.isEmpty then none else (readDigits 10 0 cs).map Int.ofNat

/-- A number in decimal digits, without leading zeros. -/
def decimal (n : Nat) : String := Nat.repr n

/-- The digit for a value below sixteen, letters in upper case. -/
def hexDigit (n : Nat) : Char := if n < 10 then Char.ofNat (48 + n) else Char.ofNat (55 + n)

/-- The digit for a value below sixteen, letters in lower case. -/
def lowerHexDigit (n : Nat) : Char := if n < 10 then Char.ofNat (48 + n) else Char.ofNat (87 + n)

/-- Exactly two upper-case hexadecimal digits. -/
def hexPair (octet : UInt8) : List Char :=
  [hexDigit (octet.toNat / 16), hexDigit (octet.toNat % 16)]

/-- The octets that pairs of hexadecimal digits denote. -/
def readHexPairs : List Char → Option (List UInt8)
  | [] => some []
  | a :: b :: rest => do
    let high ← digitValue? 16 a
    let low ← digitValue? 16 b
    return UInt8.ofNat (16 * high + low) :: (← readHexPairs rest)
  | [_] => none

/-- The text with `c` put before it until it has `width` characters. -/
def padLeft (width : Nat) (c : Char) (s : String) : String :=
  String.ofList (List.replicate (width - s.length) c ++ s.toList)

/-- The parts of a text between the occurrences of `sep`; a text without `sep` is its only part. -/
def splitAt (sep : Char) : List Char → List (List Char)
  | [] => [[]]
  | c :: rest =>
    if c = sep then [] :: splitAt sep rest
    else match splitAt sep rest with
      | [] => [[c]]
      | first :: others => (c :: first) :: others

theorem splitAt_ne_nil (sep : Char) (cs : List Char) : splitAt sep cs ≠ [] := by
  cases cs with
  | nil => simp [splitAt]
  | cons c rest =>
    rw [splitAt]
    split
    · simp
    · split <;> simp

/-- The parts joined with `sep` between them are the text again. -/
theorem intercalate_splitAt (sep : Char) (cs : List Char) :
    [sep].intercalate (splitAt sep cs) = cs := by
  induction cs with
  | nil => rfl
  | cons c rest ih =>
    rw [splitAt]
    cases hs : splitAt sep rest with
    | nil => exact absurd hs (splitAt_ne_nil sep rest)
    | cons first others =>
      rw [hs] at ih
      split
      · next h => simp [List.intercalate_cons_cons, ih, h]
      · cases others with
        | nil => simpa using ih
        | cons second more =>
          simp only [List.intercalate_cons_cons] at ih ⊢
          simp [← ih]

end Multidomain.Text
