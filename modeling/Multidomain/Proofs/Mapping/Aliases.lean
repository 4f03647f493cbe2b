import Mathlib.Data.List.Induction
import Multidomain.Proofs.Mapping.Registry
import Multidomain.Proofs.Orchestration.History

/-!
# Explicit and native ids

An explicit id stands for the native id that it was given last. The way back from a native id is kept
in a table of its own, and only one explicit id has a place in it: a native id that is given to a second
explicit id leads to the second alone, and is led nowhere once either of the two is given another one.
`native?_afterAliases` and `explicit?_afterAliases` read both tables off the operations, and
`aliases_agree_iff` says when they are inverse to each other.
-/

namespace Multidomain

/-- Something that is done to the aliases of devices. -/
inductive AliasOp where
  | set (explicit native : DeviceId)
  | clear
  deriving DecidableEq, Repr

namespace AliasOp

/-- The operation leaves alone what an explicit id stands for. -/
def Spares (explicit : DeviceId) (op : AliasOp) : Prop :=
  op ≠ clear ∧ ∀ native, op ≠ set explicit native

/-- The explicit id was given the native id, and nothing has been done to it since. -/
def Stands (ops : List AliasOp) (explicit native : DeviceId) : Prop :=
  Since (fun _ op => op = set explicit native) (Spares explicit) ops

/-- The operation breaks the way back from a native id to an explicit id: it gives the native id to
another explicit id, or takes it from another one that stands for it too. -/
def Breaks (before : List AliasOp) (explicit native : DeviceId) (op : AliasOp) : Prop :=
  ∃ other next, op = set other next ∧ other ≠ explicit ∧ (next = native ∨ Stands before other native)

/-- The way back was broken while the explicit id stood for the native id, and nothing has been done to
the explicit id since. -/
def Lost (ops : List AliasOp) (explicit native : DeviceId) : Prop :=
  Since (fun before op => Stands before explicit native ∧ Breaks before explicit native op)
    (Spares explicit) ops

variable {ops : List AliasOp} {op : AliasOp} {explicit native other next : DeviceId}

theorem stands_concat :
    Stands (ops ++ [op]) explicit native ↔
      op = set explicit native ∨ (Stands ops explicit native ∧ op.Spares explicit) :=
  since_concat

theorem lost_concat :
    Lost (ops ++ [op]) explicit native ↔
      (Stands ops explicit native ∧ Breaks ops explicit native op)
        ∨ (Lost ops explicit native ∧ op.Spares explicit) :=
  since_concat

theorem spares_set_iff : (set other next).Spares explicit ↔ other ≠ explicit := by
  simp [Spares]

theorem breaks_set_iff :
    Breaks ops explicit native (set other next) ↔
      other ≠ explicit ∧ (next = native ∨ Stands ops other native) := by
  constructor
  · rintro ⟨_, _, hop, hother, hbreaks⟩
    cases hop
    exact ⟨hother, hbreaks⟩
  · rintro ⟨hother, hbreaks⟩
    exact ⟨other, next, rfl, hother, hbreaks⟩

theorem not_stands_concat_clear : ¬ Stands (ops ++ [clear]) explicit native := by
  rw [stands_concat]
  rintro (heq | ⟨-, hspares⟩)
  · cases heq
  · exact hspares.1 rfl

theorem stands_concat_set_self :
    Stands (ops ++ [set explicit next]) explicit native ↔ next = native := by
  rw [stands_concat, spares_set_iff]
  simp

theorem stands_concat_set_of_ne (hother : other ≠ explicit) :
    Stands (ops ++ [set other next]) explicit native ↔ Stands ops explicit native := by
  rw [stands_concat, spares_set_iff]
  simp [hother]

theorem not_lost_concat_set_self : ¬ Lost (ops ++ [set explicit next]) explicit native := by
  rw [lost_concat, spares_set_iff, breaks_set_iff]
  simp

theorem lost_concat_set_of_ne (hother : other ≠ explicit) :
    Lost (ops ++ [set other next]) explicit native ↔
      (Stands ops explicit native ∧ (next = native ∨ Stands ops other native))
        ∨ Lost ops explicit native := by
  rw [lost_concat, spares_set_iff, breaks_set_iff]
  simp [hother]

theorem Lost.stands (h : Lost ops explicit native) : Stands ops explicit native := by
  induction ops using List.reverseRecOn with
  | nil => exact absurd h not_since_nil
  | append_singleton ops op ih =>
    obtain ⟨hstands, other, next, rfl, hother, -⟩ | ⟨hlost, hspares⟩ := lost_concat.1 h
    · exact (stands_concat_set_of_ne hother).2 hstands
    · exact stands_concat.2 (.inr ⟨ih hlost, hspares⟩)

/-- Where two explicit ids stand for one native id, one of them was given it while the other stood for
it already. -/
theorem exists_shared (hother : other ≠ explicit) (h : Stands ops explicit native)
    (h' : Stands ops other native) :
    ∃ before first second, before ++ [set first native] <+: ops ∧ second ≠ first
      ∧ Stands before second native := by
  induction ops using List.reverseRecOn with
  | nil => exact absurd h not_since_nil
  | append_singleton ops op ih =>
    rw [stands_concat] at h h'
    obtain rfl | ⟨h, -⟩ := h
    · obtain heq | ⟨h', -⟩ := h'
      · exact absurd (AliasOp.set.inj heq).1.symm hother
      · exact ⟨ops, explicit, other, List.prefix_rfl, hother, h'⟩
    · obtain rfl | ⟨h', -⟩ := h'
      · exact ⟨ops, other, explicit, List.prefix_rfl, hother.symm, h⟩
      · obtain ⟨before, first, second, hpre, hshared⟩ := ih h h'
        exact ⟨before, first, second, hpre.trans (List.prefix_append ops [op]), hshared⟩

/-- A way back is broken only if some native id was given to a second explicit id. -/
theorem exists_shared_of_lost (h : Lost ops explicit native) :
    ∃ before first second, before ++ [set first native] <+: ops ∧ second ≠ first
      ∧ Stands before second native := by
  obtain ⟨before, op, rest, rfl, ⟨hstands, other, next, rfl, hother, hbreaks⟩, -⟩ := h
  obtain rfl | hother' := hbreaks
  · exact ⟨before, other, explicit, ⟨rest, by simp⟩, hother.symm, hstands⟩
  · obtain ⟨before', first, second, hpre, hshared⟩ := exists_shared hother hstands hother'
    exact ⟨before', first, second, hpre.trans (List.prefix_append before _), hshared⟩

end AliasOp

namespace Registry

open AliasOp (Stands Lost)

def actAlias (r : Registry) : AliasOp → Registry
  | .set explicit native => r.setAlias explicit native
  | .clear => .empty

/-- What operations on aliases make of the registry that has heard nothing. -/
def afterAliases (ops : List AliasOp) : Registry := ops.foldl actAlias .empty

theorem afterAliases_concat (ops : List AliasOp) (op : AliasOp) :
    afterAliases (ops ++ [op]) = (afterAliases ops).actAlias op := by
  rw [afterAliases, List.foldl_append]
  rfl

/-- An explicit id stands for the native id that it was given last. -/
theorem native?_afterAliases (ops : List AliasOp) (explicit native : DeviceId) :
    (afterAliases ops).native? explicit = some native ↔ Stands ops explicit native := by
  induction ops using List.reverseRecOn with
  | nil => exact iff_of_false nofun not_since_nil
  | append_singleton ops op ih =>
    rw [afterAliases_concat]
    cases op with
    | clear => exact iff_of_false nofun AliasOp.not_stands_concat_clear
    | set other next =>
      rw [actAlias, native?_setAlias]
      by_cases hother : other = explicit
      · subst hother
        rw [if_pos rfl, AliasOp.stands_concat_set_self, Option.some.injEq]
      · rw [if_neg hother, AliasOp.stands_concat_set_of_ne hother, ih]

/-- A native id leads to the explicit id that stands for it and whose way back was not broken. -/
theorem explicit?_afterAliases (ops : List AliasOp) (explicit native : DeviceId) :
    (afterAliases ops).explicit? native = some explicit ↔
      Stands ops explicit native ∧ ¬ Lost ops explicit native := by
  induction ops using List.reverseRecOn with
  | nil => exact iff_of_false nofun fun h => not_since_nil h.1
  | append_singleton ops op ih =>
    rw [afterAliases_concat]
    cases op with
    | clear => exact iff_of_false nofun fun h => AliasOp.not_stands_concat_clear h.1
    | set other next =>
      rw [actAlias, explicit?_setAlias]
      have hother? := native?_afterAliases ops other native
      by_cases hother : other = explicit
      · -- what is given to the explicit id itself takes effect in both tables
        subst hother
        rw [AliasOp.stands_concat_set_self]
        by_cases hnext : next = native
        · rw [if_pos hnext]
          exact iff_of_true rfl ⟨hnext, AliasOp.not_lost_concat_set_self⟩
        · rw [if_neg hnext]
          refine iff_of_false ?_ fun h => hnext h.1
          split
          · exact nofun
          · next hfree =>
            rw [ih]
            exact fun h => hfree (hother?.2 h.1)
      · rw [AliasOp.stands_concat_set_of_ne hother, AliasOp.lost_concat_set_of_ne hother]
        by_cases hnext : next = native
        · rw [if_pos hnext, Option.some.injEq]
          exact iff_of_false hother fun h => h.2 (.inl ⟨h.1, .inl hnext⟩)
        · rw [if_neg hnext]
          split
          · next htaken =>
            exact iff_of_false nofun fun h => h.2 (.inl ⟨h.1, .inr (hother?.1 htaken)⟩)
          · next hfree =>
            have hnone : ¬ Stands ops other native := fun h => hfree (hother?.2 h)
            rw [ih]
            simp [hnext, hnone]

/-- The two tables agree on two ids exactly when the way back was not broken. -/
theorem native?_iff_explicit?_iff (ops : List AliasOp) (explicit native : DeviceId) :
    ((afterAliases ops).native? explicit = some native ↔
        (afterAliases ops).explicit? native = some explicit)
      ↔ ¬ Lost ops explicit native := by
  rw [native?_afterAliases, explicit?_afterAliases]
  exact ⟨fun hiff hlost => (hiff.1 hlost.stands).2 hlost,
    fun hkept => ⟨fun hstands => ⟨hstands, hkept⟩, And.left⟩⟩

/-- Whatever is done to aliases, what a native id leads to stands for it. The converse holds of two ids
exactly when the way back was not broken since the explicit id was given the native one; and the two
tables have been inverse to each other all along exactly when no native id was ever given to an explicit
id while another one stood for it. -/
theorem aliases_agree_iff (ops : List AliasOp) :
    (∀ explicit native, (afterAliases ops).native? explicit = some native ↔
        Stands ops explicit native)
      ∧ (∀ explicit native, (afterAliases ops).explicit? native = some explicit →
        (afterAliases ops).native? explicit = some native)
      ∧ (∀ explicit native, ((afterAliases ops).native? explicit = some native ↔
          (afterAliases ops).explicit? native = some explicit) ↔ ¬ Lost ops explicit native)
      ∧ ((∀ moment, moment <+: ops → ∀ explicit native,
            (afterAliases moment).native? explicit = some native ↔
              (afterAliases moment).explicit? native = some explicit)
        ↔ ∀ before explicit native, before ++ [.set explicit native] <+: ops →
            ∀ other, Stands before other native → other = explicit) := by
  refine ⟨native?_afterAliases ops, fun explicit native h => ?_, native?_iff_explicit?_iff ops, ?_⟩
  · rw [native?_afterAliases]
    exact ((explicit?_afterAliases ops explicit native).1 h).1
  · constructor
    · intro hagree before explicit native hpre other hstands
      by_contra hother
      -- the id that stood for the native one first has lost its way back to the second
      refine (native?_iff_explicit?_iff _ other native).1 (hagree _ hpre other native) ?_
      exact (AliasOp.lost_concat_set_of_ne (Ne.symm hother)).2 (.inl ⟨hstands, .inl rfl⟩)
    · intro hsingle moment hmoment explicit native
      rw [native?_iff_explicit?_iff]
      intro hlost
      obtain ⟨before, first, second, hpre, hne, hstands⟩ := AliasOp.exists_shared_of_lost hlost
      exact hne (hsingle before first _ (hpre.trans hmoment) second hstands)

/-- A native id that is given to a second explicit id leads to the second alone, and to neither of them
once the first is given another native id. -/
theorem alias_leads_elsewhere :
    let first : DeviceId := ⟨"exvs:1"⟩
    let second : DeviceId := ⟨"exvs:2"⟩
    let native : DeviceId := ⟨"of:1"⟩
    let shared := afterAliases [.set first native, .set second native]
    let left := afterAliases [.set first native, .set second native, .set first ⟨"of:2"⟩]
    (shared.native? first = some native ∧ shared.explicit? native = some second)
      ∧ ¬ (shared.native? first = some native ↔ shared.explicit? native = some first)
      ∧ (left.native? second = some native ∧ left.explicit? native = none) := by
  decide

end Registry

end Multidomain
