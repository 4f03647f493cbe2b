import Multidomain.Text.Numeral

/-!
# Ethernet addresses and VLAN tags

An Ethernet address is six octets. It is written as six pairs of upper-case hexadecimal digits
joined by colons; it is read, blanks around it aside, from six two-character numerals of either case
joined by colons.

A host is either untagged, written `None`, or carries a VLAN number of at most 4095. The word is
read in any mix of letter cases and blanks around the text are ignored.

An identifier that a child reports may be ill formed; what is said of it keeps the text at fault.
-/

namespace Multidomain

/-- An identifier that does not follow its grammar, with the text at fault. -/
inductive ParseError where
  | deviceId (text : String)
  | mac (text : String)
  | vlan (text : String)
  deriving DecidableEq, Repr, Inhabited

def ParseError.message : ParseError → String
  | .deviceId text => "invalid device id: " ++ text
  | .mac text => "invalid mac address: " ++ text
  | .vlan text => "invalid vlan id: " ++ text

structure Mac where
  /-- The octets, first transmitted first. -/
  octets : List UInt8
  length_octets : octets.length = 6
  deriving DecidableEq

namespace Mac

instance : Repr Mac := ⟨fun m n => reprPrec m.octets n⟩

def ofOctets? (octets : List UInt8) : Option Mac :=
  if h : octets.length = 6 then some ⟨octets, h⟩ else none

/-- The address as one number, the first octet most significant; addresses are ordered by it. -/
def value (m : Mac) : Nat := m.octets.foldl (fun acc o => acc * 256 + o.toNat) 0

instance : Ord Mac := ⟨fun a b => compare a.value b.value⟩

/-- One octet: a numeral of exactly two characters. -/
def octet? (cs : List Char) : Option UInt8 :=
  if cs.length = 2 then (Text.readNumber 16 255 cs).map UInt8.ofNat else none

def ofChars? (cs : List Char) : Option Mac :=
  ((Text.splitAt ':' cs).mapM octet?).bind ofOctets?

/-- The address that a text denotes, blanks around it ignored. -/
def parse (s : String) : Except ParseError Mac :=
  match ofChars? (Text.trimChars s.toList) with
  | some m => .ok m
  | none => .error (.mac s)

def toChars (m : Mac) : List Char := [':'].intercalate (m.octets.map Text.hexPair)

protected def toString (m : Mac) : String := String.ofList m.toChars

instance : ToString Mac := ⟨Mac.toString⟩

instance : Inhabited Mac := ⟨⟨[0, 0, 0, 0, 0, 0], rfl⟩⟩

end Mac

inductive Vlan where
  | untagged
  | tagged (number : Fin 4096)
  deriving DecidableEq, Repr, Inhabited

namespace Vlan

/-- The VLAN with the given number; numbers above 4095 are refused. -/
def ofNat (n : Nat) : Except ParseError Vlan :=
  if h : n < 4096 then .ok (.tagged ⟨n, h⟩) else .error (.vlan (Text.decimal n))

/-- The VLAN that a text denotes. A text that is no 16-bit number at all is reported as it stands, a
number above 4095 in its plain decimal form. -/
def parse (s : String) : Except ParseError Vlan :=
  let text := Text.trim s
  if text.toLower = "none" then .ok .untagged
  else match Text.readDecimal 65535 text with
    | some n => ofNat n
    | none => .error (.vlan text)

protected def toString : Vlan → String
  | untagged => "None"
  | tagged n => Text.decimal n.val

instance : ToString Vlan := ⟨Vlan.toString⟩

/-- The rank by which VLANs are ordered: numbers first, then untagged. -/
def rank : Vlan → Nat
  | untagged => 65535
  | tagged n => n.val

instance : Ord Vlan := ⟨fun a b => compare a.rank b.rank⟩

end Vlan

end Multidomain
