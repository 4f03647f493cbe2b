import Multidomain.Text.Numeral

/-!
# Internet addresses

The textual forms of version 4 and version 6 addresses. A version 4 address is four decimal octets
without leading zeros. A version 6 address is eight groups of up to four hexadecimal digits, of
which one run of zero groups may be left out as `::`, and of which the last two may be written as a
version 4 address. The written form is the recommended one: lower case, no leading zeros, the
longest run of at least two zero groups (the first of several) left out, and the last two groups in
version 4 form exactly for version 4 addresses mapped into version 6.
-/

namespace Multidomain

/-- A version 4 address: four octets. -/
structure Ip4 where
  octets : List UInt8
  length_octets : octets.length = 4
  deriving DecidableEq

/-- A version 6 address: eight 16-bit groups. -/
structure Ip6 where
  groups : List UInt16
  length_groups : groups.length = 8
  deriving DecidableEq

inductive Ip where
  | v4 (address : Ip4)
  | v6 (address : Ip6)
  deriving DecidableEq

instance : Repr Ip4 := ⟨fun a n => reprPrec a.octets n⟩
instance : Repr Ip6 := ⟨fun a n => reprPrec a.groups n⟩
deriving instance Repr for Ip

namespace Ip4

def ofOctets? (octets : List UInt8) : Option Ip4 :=
  if h : octets.length = 4 then some ⟨octets, h⟩ else none

/-- A decimal octet of one to three digits; zero is the only one that starts with a zero. -/
def octet? (cs : List Char) : Option UInt8 :=
  if cs.isEmpty ∨ 3 < cs.length ∨ (cs.head? = some '0' ∧ cs.length ≠ 1) then none
  else ((Text.readDigits 10 0 cs).filter (· ≤ 255)).map UInt8.ofNat

def ofChars? (cs : List Char) : Option Ip4 :=
  ((Text.splitAt '.' cs).mapM octet?).bind ofOctets?

def parse? (s : String) : Option Ip4 := ofChars? s.toList

def toChars (a : Ip4) : List Char :=
  ['.'].intercalate (a.octets.map fun o => Nat.toDigits 10 o.toNat)

protected def toString (a : Ip4) : String := String.ofList a.toChars

/-- The two 16-bit groups that the four octets make. -/
def groups (a : Ip4) : List UInt16 :=
  match a.octets with
  | [a, b, c, d] => [a.toUInt16 * 256 + b.toUInt16, c.toUInt16 * 256 + d.toUInt16]
  | _ => []

end Ip4

namespace Ip6

def ofGroups? (groups : List UInt16) : Option Ip6 :=
  if h : groups.length = 8 then some ⟨groups, h⟩ else none

def group? (cs : List Char) : Option UInt16 :=
  if cs.isEmpty ∨ 4 < cs.length then none else (Text.readDigits 16 0 cs).map UInt16.ofNat

/-- The groups of colon-separated parts, the last of which may be a version 4 address. -/
def groups? : List (List Char) → Option (List UInt16)
  | [] => some []
  | [last] => match group? last with
    | some g => some [g]
    | none => (Ip4.ofChars? last).map Ip4.groups
  | part :: rest => (group? part).bind fun g => (groups? rest).map (g :: ·)

/-- The groups on one side of a `::`, where there may be none. -/
def side? (cs : List Char) : Option (List UInt16) :=
  if cs.isEmpty then some [] else groups? (Text.splitAt ':' cs)

/-- The two sides of the first `::`. -/
def splitGap : List Char → Option (List Char × List Char)
  | ':' :: ':' :: rest => some ([], rest)
  | c :: rest => (splitGap rest).map fun (before, after) => (c :: before, after)
  | [] => none

def ofChars? (cs : List Char) : Option Ip6 :=
  match splitGap cs with
  | none => (side? cs).bind ofGroups?
  | some (before, after) => do
    let front ← if before.contains '.' then none else side? before
    let back ← side? after
    if front.length + back.length ≤ 7 then
      ofGroups? (front ++ List.replicate (8 - front.length - back.length) 0 ++ back)
    else none

def zeroRun (groups : List UInt16) : Nat := (groups.takeWhile (· == 0)).length

/-- The start and the length of the longest run of zero groups, the first of several; `i` is the
position of the list's first group. -/
def longestZeroRun : Nat → List UInt16 → Nat × Nat
  | _, [] => (0, 0)
  | i, g :: rest =>
    let here := zeroRun (g :: rest)
    let later := longestZeroRun (i + 1) rest
    if here ≠ 0 ∧ later.2 ≤ here then (i, here) else later

/-- Groups in lower-case hexadecimal, joined by colons. -/
def renderGroups (groups : List UInt16) : List Char :=
  [':'].intercalate (groups.map fun g => Nat.toDigits 16 g.toNat)

/-- The version 4 address that is mapped into this one. -/
def mapped? (a : Ip6) : Option Ip4 :=
  match a.groups with
  | [0, 0, 0, 0, 0, 0xffff, high, low] =>
    Ip4.ofOctets? [(high >>> 8).toUInt8, high.toUInt8, (low >>> 8).toUInt8, low.toUInt8]
  | _ => none

def toChars (a : Ip6) : List Char :=
  match a.mapped? with
  | some four => [':', ':', 'f', 'f', 'f', 'f', ':'] ++ four.toChars
  | none =>
    let (start, length) := longestZeroRun 0 a.groups
    if 1 < length then
      renderGroups (a.groups.take start) ++ [':', ':']
        ++ renderGroups (a.groups.drop (start + length))
    else renderGroups a.groups

protected def toString (a : Ip6) : String := String.ofList a.toChars

end Ip6

namespace Ip

def parse? (s : String) : Option Ip :=
  match Ip4.parse? s with
  | some a => some (.v4 a)
  | none => (Ip6.ofChars? s.toList).map .v6

protected def toString : Ip → String
  | v4 a => a.toString
  | v6 a => a.toString

instance : ToString Ip := ⟨Ip.toString⟩

end Ip

end Multidomain
