import Multidomain.Proofs.Orchestration.Contents
import Multidomain.Proofs.Wire.Entry

/-!
# Devices as their entries describe them

The explicit view describes a device in full, and the device that is made of its entry has what the
entry says, but for availability and role: these are written and read, and then left as a bare switch
has them. Annotations may arrive in another order, which is no difference between devices.
-/

namespace Multidomain

open Json (Passage)

/-- Devices that differ at most in the order of their annotations. -/
structure Device.Same (d d' : Device) : Prop where
  annotations : d.annotations.Same d'.annotations
  rest : { d with annotations := .empty } = { d' with annotations := .empty }

namespace DeviceEntry

theorem kindOfWord_name (k : DeviceKind) : kindOfWord (some k.name) = k := by
  rw [kindOfWord, DeviceKind.ofName?_name, Option.getD_some]

/-- Annotations arrive as they were, whichever way they came. -/
theorem same_arrange (p : Passage) (t : Table String String) : (p.arrange t).Same t := by
  cases p with
  | asWritten => exact .refl t
  | asValue => exact fun name => (t.same_inOrder name).symm

/-- What is made of the entry of a device as it arrives. -/
theorem toDevice_explicit (d : Device) (annotations : Table String String) :
    ({ explicit d with annotations := some annotations } : DeviceEntry).toDevice
      = { d with annotations, available := true, role := .master } := by
  show Device.mk d.id (kindOfWord (some d.kind.name)) d.manufacturer d.hardware d.software d.serial
    d.chassis annotations true .master = _
  rw [kindOfWord_name]

/-- **Devices survive the trip but for availability and role.** The entry of a device in the explicit
view is read back, and the device made of it is the one that was described, made available and held as
master. So it is the same device exactly when it was available and held as master. -/
theorem described_device (p : Passage) (d : Device) :
    ∃ entry, read? (p.carry (explicit d).toJson) = some entry
      ∧ entry.toDevice.Same { d with available := true, role := .master }
      ∧ (entry.toDevice.Same d ↔ d.available = true ∧ d.role = .master) := by
  refine ⟨_, read?_carry p (explicit d), ?_⟩
  rw [show (explicit d).annotations.map p.arrange = some (p.arrange d.annotations) from rfl,
    toDevice_explicit]
  refine ⟨⟨same_arrange p d.annotations, rfl⟩, ?_⟩
  constructor
  · rintro ⟨-, hrest⟩
    have havailable := congrArg Device.available hrest
    have hrole := congrArg Device.role hrest
    exact ⟨havailable.symm, hrole.symm⟩
  · rintro ⟨havailable, hrole⟩
    refine ⟨same_arrange p d.annotations, ?_⟩
    simp only [havailable, hrole]

/-- A device that is not reachable and held in reserve. -/
def inReserve : Device := { Device.switch ⟨"of:1"⟩ with available := false, role := .standby }

/-- A device need not survive the trip. -/
theorem availability_not_taken_over :
    ¬ ∀ (d : Device) (entry : DeviceEntry),
      read? (explicit d).toJson = some entry → entry.toDevice.Same d := by
  intro h
  have hsame := h inReserve (explicit inReserve) (read?_carry .asWritten _)
  have havailable := congrArg Device.available hsame.rest
  exact absurd havailable (by decide)

end DeviceEntry

end Multidomain
