import Multidomain.Address.Ip
import Multidomain.Element.DeviceId

/-!
# Addresses of children

A child is addressed as `host` or `host:port`. A text with several colons carries no port, and
neither does one whose last part is no 16-bit number. The virtual device that stands for a whole
child is named after its address: the four octets of a version 4 address in three digits each, every
other host in lower case with hyphens for whatever is not a letter or a digit, and the port where
the address carries one.
-/

namespace Multidomain.ChildAddress

/-- The host of an address, and the port where it carries one. -/
def split (child : String) : String × Option Nat :=
  match Text.splitAt ':' child.toList with
  | [host, port] =>
    match Text.readNumber 10 65535 port with
    | some n => (String.ofList host, some n)
    | none => (child, none)
  | _ => (child, none)

/-- The address with its port, the given one where it carries none. -/
def authority (defaultPort : Nat) (child : String) : String :=
  let (host, port) := split child
  host ++ ":" ++ Text.decimal (port.getD defaultPort)

def isAsciiAlphanumeric (c : Char) : Bool := c.isAlpha || c.isDigit

/-- The local part of the virtual device's id that a host stands for. -/
def hostPart (host : String) : String :=
  match Ip4.parse? host with
  | some a => String.join (a.octets.map fun o => "f" ++ Text.padLeft 3 '0' (Text.decimal o.toNat))
  | none =>
    String.ofList (host.toList.map fun c => if isAsciiAlphanumeric c then c.toLower else '-')

/-- The virtual device that stands for everything behind a child. -/
def virtualDevice (child : String) : DeviceId :=
  let (host, port) := split child
  let suffix := match port with
    | some n => "p" ++ Text.decimal n
    | none => ""
  .qualified DeviceId.implicitScheme (hostPart host ++ suffix)

end Multidomain.ChildAddress
