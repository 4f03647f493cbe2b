import Multidomain.Address.Ethernet

/-!
# Device ids

A device id is a text. Ids of the form `scheme:part` are qualified: the scheme names whoever gave
the id out. The orchestrator itself gives out two schemes, one for devices that it takes over from a
child one by one and one for the virtual devices that stand for a whole child; every other scheme is
native. The scheme ends at the first colon; only an id with exactly one colon and text on both sides
of it can be requalified.
-/

namespace Multidomain

structure DeviceId where
  text : String
  deriving DecidableEq, Repr, Inhabited

namespace DeviceId

instance : ToString DeviceId := ⟨text⟩

instance : Ord DeviceId := ⟨fun a b => compare a.text b.text⟩

/-- The scheme of devices that are taken over from a child one by one. -/
def explicitScheme : String := "exvs"

/-- The scheme of virtual devices that stand for a whole child. -/
def implicitScheme : String := "imvs"

def qualified (scheme part : String) : DeviceId := ⟨scheme ++ ":" ++ part⟩

/-- What stands before and after the first colon. -/
def cut? (id : DeviceId) : Option (String × String) :=
  match id.text.toList.dropWhile (· ≠ ':') with
  | [] => none
  | _ :: after =>
    some (String.ofList (id.text.toList.takeWhile (· ≠ ':')), String.ofList after)

/-- The part before the first colon. -/
def scheme? (id : DeviceId) : Option String := id.cut?.map Prod.fst

theorem scheme?_qualified {scheme : String} (part : String) (h : ':' ∉ scheme.toList) :
    (qualified scheme part).scheme? = some scheme := by
  have hscheme : ∀ c ∈ scheme.toList, decide (c ≠ ':') = true := by
    intro c hc
    have hne : c ≠ ':' := fun heq => h (heq ▸ hc)
    simpa using hne
  have htext : (qualified scheme part).text.toList = scheme.toList ++ ':' :: part.toList := by
    simp [qualified]
  rw [scheme?, cut?, htext, List.dropWhile_append_of_pos hscheme,
    List.takeWhile_append_of_pos hscheme]
  simp

/-- The part after the first colon, or the whole id where there is no colon. -/
def localPart (id : DeviceId) : String := (id.cut?.map Prod.snd).getD id.text

/-- Scheme and part of a qualified id: exactly one colon, with text on both sides of it. -/
def split (id : DeviceId) : Except ParseError (String × String) :=
  match id.cut? with
  | some (scheme, part) =>
    if scheme.isEmpty ∨ part.isEmpty ∨ part.toList.contains ':' then .error (.deviceId id.text)
    else .ok (scheme, part)
  | none => .error (.deviceId id.text)

/-- The id that a child's device has in the explicit view. -/
def toExplicit (native : DeviceId) : Except ParseError DeviceId :=
  native.split.map fun (_, part) => qualified explicitScheme part

/-- The orchestrator's own scheme that the id carries. -/
def orchestratedScheme? (id : DeviceId) : Option String :=
  id.scheme?.filter fun s => s = explicitScheme ∨ s = implicitScheme

end DeviceId

end Multidomain
