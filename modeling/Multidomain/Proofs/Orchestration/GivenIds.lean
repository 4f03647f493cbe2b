import Multidomain.Proofs.Orchestration.MixedHistory

/-!
# Where the ids of a node come from

Under either abstraction a report makes a node announce devices under ids that the abstraction gives for
the child, or under ids that its topology names already. So whatever holds of all ids that are given,
holds of every id in the topology, and of every id in the events that tell of it.
-/

namespace Multidomain.Domain

variable {P : DeviceId → Prop} {d : Domain} {mode : Abstraction}

/-- The domain is consistent, and its topology names devices of a kind only. -/
structure Names (P : DeviceId → Prop) (d : Domain) : Prop where
  consistent : d.Consistent
  topology : d.topology.Names P

theorem names_empty : Names P .empty := ⟨consistent_empty, Topology.names_empty⟩

theorem Names.takeUpJson (h : d.Names P) {r : Report} (hnew : ∀ id, mode.Gives r.child id → P id) :
    (d.takeUpJson mode r.child r.kind r.change r.value).1.Names P ∧
      ∀ e ∈ (d.takeUpJson mode r.child r.kind r.change r.value).2.1, e.Names P := by
  have htopology : (d.hear mode r).topology.Names P ∧
      ∀ e ∈ (d.takeUpJson mode r.child r.kind r.change r.value).2.1, e.Names P := by
    cases hmeaning : d.registry.meaning? mode r with
    | none =>
      obtain ⟨fault, htaken⟩ := takeUpJson_of_meaningless hmeaning fun _ => h.consistent.housed
      rw [hear, htaken]
      exact ⟨h.topology, by simp⟩
    | some m =>
      have hnotices := h.consistent.names_of_meaning h.topology hnew hmeaning
      obtain ⟨e, helement, hmeaning⟩ := Registry.meaning?_eq_some hmeaning
      rw [hear, takeUpJson_of_element helement, takeUp_of_ok hmeaning]
      exact h.topology.heedAll hnotices
  exact ⟨⟨h.consistent.hear mode r, htopology.1⟩, htopology.2⟩

variable {child : String} (hnew : ∀ id, mode.Gives child id → P id)
include hnew

theorem Names.takeUpAll (h : d.Names P) (kind : ElementKind) (change : Change) (values : List Json) :
    (takeUpAll mode child kind change values d).1.Names P ∧
      ∀ e ∈ (takeUpAll mode child kind change values d).2.1, e.Names P := by
  induction values generalizing d with
  | nil => exact ⟨h, by simp [Domain.takeUpAll]⟩
  | cons value rest ih =>
    obtain ⟨hd, hnow⟩ := h.takeUpJson (r := ⟨child, kind, change, value⟩) hnew
    obtain ⟨hrest, hlater⟩ := ih hd
    refine ⟨hrest, fun e he => ?_⟩
    obtain he | he := List.mem_append.1 he
    · exact hnow e he
    · exact hlater e he

/-- A document leaves nothing behind, and tells nothing, but of such ids. -/
theorem Names.apply (h : d.Names P) (document : TopologyDocument) :
    (d.apply mode child document).1.Names P ∧
      ∀ e ∈ (d.apply mode child document).2.1, e.Names P := by
  cases document with
  | devices elements => exact h.takeUpAll hnew .device .added elements
  | links elements => exact h.takeUpAll hnew .link .added elements
  | hosts elements => exact h.takeUpAll hnew .host .added elements
  | edgeUpdates updates =>
    obtain ⟨hd, hadded⟩ := h.takeUpAll hnew .link .added updates.added
    obtain ⟨hd', hdeleted⟩ := hd.takeUpAll hnew .link .removed updates.deleted
    refine ⟨hd', fun e he => ?_⟩
    obtain he | he := List.mem_append.1 he
    · exact hadded e he
    · exact hdeleted e he

end Multidomain.Domain
