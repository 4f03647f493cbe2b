import Multidomain.Proofs.Child.HostPart
import Multidomain.Proofs.Orchestration.ExplicitLinks
import Multidomain.Proofs.Orchestration.GivenIds
import Multidomain.Proofs.Text.Numeral

/-!
# The ids that a node gives can be requalified

A node that has a parent is itself a child, so its ids must be of the form that the parent requalifies:
exactly one colon, with text on both sides of it. An id that was requalified has that form again. The id
of a virtual device has it because whatever in the address of a child is no letter and no digit is
replaced, and because something is left of every address but the empty one.
-/

namespace Multidomain

namespace DeviceId

theorem cut?_qualified {scheme : String} (part : String) (h : ':' ∉ scheme.toList) :
    (qualified scheme part).cut? = some (scheme, part) := by
  have hscheme : ∀ c ∈ scheme.toList, decide (c ≠ ':') = true := by
    rintro c hc
    exact decide_eq_true fun heq => h (heq ▸ hc)
  have htext : (qualified scheme part).text.toList = scheme.toList ++ ':' :: part.toList := by
    simp [qualified]
  rw [cut?, htext, List.dropWhile_append_of_pos hscheme, List.takeWhile_append_of_pos hscheme]
  simp

theorem wellFormed_qualified {scheme part : String} (hscheme : scheme ≠ "")
    (hcolon : ':' ∉ scheme.toList) (hpart : part ≠ "") (hplain : ':' ∉ part.toList) :
    (qualified scheme part).WellFormed := by
  refine ⟨scheme, part, ?_⟩
  simp [split, cut?_qualified part hcolon, hscheme, hpart, hplain]

theorem wellFormed_of_toExplicit {native explicit : DeviceId} (h : native.toExplicit = .ok explicit) :
    explicit.WellFormed := by
  unfold toExplicit split at h
  split at h
  · split at h
    · cases h
    · next hparts =>
      cases h
      simp only [String.isEmpty_iff, List.contains_eq_mem, decide_eq_true_eq, not_or] at hparts
      exact wellFormed_qualified (by decide) (by decide) hparts.2.1 hparts.2.2
  · cases h

end DeviceId

namespace ChildAddress

theorem colon_notMem_hostPart (host : String) : ':' ∉ (hostPart host).toList := by
  intro h
  obtain halphanumeric | hhyphen := mem_hostPart h
  · exact absurd halphanumeric (by decide)
  · exact absurd hhyphen (by decide)

theorem hostPart_ne_empty {host : String} (h : host ≠ "") : hostPart host ≠ "" := by
  unfold hostPart
  split
  · next a _ =>
    obtain ⟨o, rest, hoctets⟩ := List.exists_cons_of_length_pos (l := a.octets) (by
      rw [a.length_octets]
      decide)
    rw [hoctets]
    simp
  · intro hempty
    have hnil := congrArg String.toList hempty
    simp only [String.toList_ofList, String.toList_empty, List.map_eq_nil_iff,
      String.toList_eq_nil_iff] at hnil
    exact h hnil

/-- The virtual device of a child whose address is not empty. -/
theorem wellFormed_virtualDevice {child : String} (h : child ≠ "") :
    (virtualDevice child).WellFormed := by
  have hscheme : DeviceId.implicitScheme ≠ "" := by decide
  have hcolon : ':' ∉ DeviceId.implicitScheme.toList := by decide
  unfold virtualDevice
  cases hsplit : split child with
  | mk host port =>
    cases port with
    | none =>
      -- An address without a port is its own host.
      have hhost : host = child := by
        unfold split at hsplit
        split at hsplit
        · split at hsplit
          · cases hsplit
          · cases hsplit; rfl
        · cases hsplit; rfl
      simp only [String.append_empty]
      exact DeviceId.wellFormed_qualified hscheme hcolon (hostPart_ne_empty (hhost ▸ h))
        (colon_notMem_hostPart host)
    | some n =>
      refine DeviceId.wellFormed_qualified hscheme hcolon (by simp) ?_
      simp only [String.toList_append, List.mem_append, not_or]
      exact ⟨colon_notMem_hostPart host, by decide, Text.colon_notMem_decimal n⟩

end ChildAddress

theorem Abstraction.Gives.wellFormed {mode : Abstraction} {child : String} {id : DeviceId}
    (h : mode.Gives child id) (hchild : child ≠ "") : id.WellFormed := by
  cases mode with
  | explicit =>
    obtain ⟨native, hid⟩ := h
    exact DeviceId.wellFormed_of_toExplicit hid
  | implicit =>
    obtain rfl := h
    exact ChildAddress.wellFormed_virtualDevice hchild

end Multidomain
