import Multidomain.Orchestration.Session
import Multidomain.Proofs.Orchestration.Footing
import Multidomain.Proofs.Orchestration.MixedHistory
import Multidomain.Proofs.Wire.Document

/-!
# Skipped elements leave no trace

An element is taken up by several tables and the topology, one after the other, and it may fail at
several points; what has been written by then stays. In a consistent domain nothing has been: an
identifier is read before anything is written, a device that is mapped has a port space to give ports
from, so that a fold is not broken off between its two ends, and nothing that is announced is refused. So
a document does what the elements that are applied do without the others, and each element is counted
once.
-/

namespace Multidomain

namespace Domain

variable {mode : Abstraction} {child : String} {d : Domain}

theorem Consistent.takeUpJson_of_fault {r : Report} {fault : ElementFault} (h : Consistent d)
    (hfault : (d.takeUpJson mode r.child r.kind r.change r.value).2.2 = some fault) :
    d.takeUpJson mode r.child r.kind r.change r.value = (d, [], some fault) := by
  cases hmeaning : d.registry.meaning? mode r with
  | some m => exact nomatch (h.takeUpJson hmeaning).2.symm.trans hfault
  | none =>
    obtain ⟨fault', htaken⟩ := takeUpJson_of_meaningless hmeaning fun _ => h.housed
    rw [htaken] at hfault ⊢
    rw [Option.some.inj hfault]

/-- The elements that are applied, of those that are taken up in order. -/
def kept (mode : Abstraction) (child : String) (kind : ElementKind) (change : Change) :
    List Json → Domain → List Json
  | [], _ => []
  | value :: rest, d =>
    let taken := d.takeUpJson mode child kind change value
    if taken.2.2.isSome then kept mode child kind change rest taken.1
    else value :: kept mode child kind change rest taken.1

/-- Without the elements that are skipped the others do the same. -/
theorem Consistent.takeUpAll_kept {kind : ElementKind} {change : Change} (h : Consistent d)
    (values : List Json) {d' : Domain} {events : List Event} {stats : ApplyStats}
    (hall : takeUpAll mode child kind change values d = (d', events, stats)) :
    takeUpAll mode child kind change (kept mode child kind change values d) d
      = (d', events, ⟨stats.applied, 0⟩) := by
  induction values generalizing d d' events stats with
  | nil =>
    cases hall
    rfl
  | cons value rest ih =>
    have hnext : Consistent (d.takeUpJson mode child kind change value).1 :=
      h.hear mode ⟨child, kind, change, value⟩
    rcases htaken : d.takeUpJson mode child kind change value with ⟨d₁, now, fault⟩
    rcases hrest : takeUpAll mode child kind change rest d₁ with ⟨d₂, later, counted⟩
    simp only [htaken] at hnext
    simp only [takeUpAll, htaken, hrest, Prod.mk.injEq] at hall
    obtain ⟨rfl, rfl, rfl⟩ := hall
    have hkept := ih hnext hrest
    cases fault with
    | none => simp [kept, takeUpAll, htaken, hkept]
    | some fault =>
      have hfault : (d.takeUpJson mode child kind change value).2.2 = some fault := by rw [htaken]
      have hskipped := h.takeUpJson_of_fault (r := ⟨child, kind, change, value⟩) hfault
      obtain ⟨rfl, rfl⟩ : d₁ = d ∧ now = [] := by simpa [htaken] using hskipped
      simp [kept, htaken, hkept]

theorem applied_add_skipped {kind : ElementKind} {change : Change} (values : List Json)
    {d' : Domain} {events : List Event} {stats : ApplyStats}
    (hall : takeUpAll mode child kind change values d = (d', events, stats)) :
    stats.applied + stats.skipped = values.length := by
  induction values generalizing d d' events stats with
  | nil =>
    cases hall
    rfl
  | cons value rest ih =>
    rcases htaken : d.takeUpJson mode child kind change value with ⟨d₁, now, fault⟩
    rcases hrest : takeUpAll mode child kind change rest d₁ with ⟨d₂, later, counted⟩
    simp only [takeUpAll, htaken, hrest, Prod.mk.injEq] at hall
    obtain ⟨rfl, rfl, rfl⟩ := hall
    have hcounted := ih hrest
    rw [List.length_cons]
    split <;> dsimp only <;> omega

end Domain

/-- The document with the elements that are applied, and without those that are skipped. -/
def TopologyDocument.kept (mode : Abstraction) (child : String) (d : Domain) :
    TopologyDocument → TopologyDocument
  | devices elements => .devices (Domain.kept mode child .device .added elements d)
  | links elements => .links (Domain.kept mode child .link .added elements d)
  | hosts elements => .hosts (Domain.kept mode child .host .added elements d)
  | edgeUpdates updates => .edgeUpdates
    { added := Domain.kept mode child .link .added updates.added d
      deleted := Domain.kept mode child .link .removed updates.deleted
        (Domain.takeUpAll mode child .link .added updates.added d).1 }

namespace Domain

variable {mode : Abstraction} {child : String} {d : Domain}

theorem Consistent.apply_kept (h : Consistent d) (document : TopologyDocument) :
    let all := d.apply mode child document
    d.apply mode child (document.kept mode child d) = (all.1, all.2.1, ⟨all.2.2.applied, 0⟩) := by
  cases document with
  | devices elements => exact h.takeUpAll_kept elements rfl
  | links elements => exact h.takeUpAll_kept elements rfl
  | hosts elements => exact h.takeUpAll_kept elements rfl
  | edgeUpdates updates =>
    rcases hadded : takeUpAll mode child .link .added updates.added d with ⟨d₁, now, first⟩
    rcases hdeleted : takeUpAll mode child .link .removed updates.deleted d₁ with ⟨d₂, later, second⟩
    have hnext : Consistent d₁ := by
      have hheard := @takeUpAll_fst mode child .link .added updates.added d
      rw [hadded] at hheard
      exact (congrArg Consistent hheard).mpr (h.hearAll mode _)
    have hkept := h.takeUpAll_kept updates.added hadded
    have hkept' := hnext.takeUpAll_kept updates.deleted hdeleted
    simp [TopologyDocument.kept, apply, hadded, hdeleted, hkept, hkept']

theorem applied_add_skipped_apply (mode : Abstraction) (child : String) (d : Domain)
    (document : TopologyDocument) :
    (d.apply mode child document).2.2.applied + (d.apply mode child document).2.2.skipped
      = document.elements.length := by
  cases document with
  | devices elements => exact applied_add_skipped elements rfl
  | links elements => exact applied_add_skipped elements rfl
  | hosts elements => exact applied_add_skipped elements rfl
  | edgeUpdates updates =>
    rcases hadded : takeUpAll mode child .link .added updates.added d with ⟨d₁, now, first⟩
    rcases hdeleted : takeUpAll mode child .link .removed updates.deleted d₁ with ⟨d₂, later, second⟩
    have hfirst := applied_add_skipped updates.added hadded
    have hsecond := applied_add_skipped updates.deleted hdeleted
    simp only [apply, TopologyDocument.elements, hadded, hdeleted, List.length_append]
    omega

/-- **Whatever is skipped leaves no trace.** In every state that documents taken up under either
abstraction can lead to, an element that fails leaves the tables and the topology as they are and
tells nothing; a document does what its applied elements do without the others, and every element is
either applied or skipped; and bytes that hold no document change nothing. -/
theorem skipped_leaves_no_trace (letters : List (Abstraction × Letter)) (mode : Abstraction)
    (child : String) :
    let d := afterMixed letters
    (∀ document before r rest, Letter.reports ⟨child, document⟩ = before ++ r :: rest →
      let d' := d.hearAll mode before
      ∀ fault, (d'.takeUpJson mode r.child r.kind r.change r.value).2.2 = some fault →
        d'.takeUpJson mode r.child r.kind r.change r.value = (d', [], some fault)) ∧
    (∀ document,
      let all := d.apply mode child document
      d.apply mode child (document.kept mode child d) = (all.1, all.2.1, ⟨all.2.2.applied, 0⟩) ∧
        all.2.2.applied + all.2.2.skipped = document.elements.length) ∧
    ∀ s : Session, s.domain = d → ∀ bytes fault, TopologyDocument.parse bytes = .error fault →
      s.hear child bytes = .error fault ∧
        ∀ reply : ChildReply, reply.document? = some bytes → s.takeUp child reply = (s, []) := by
  intro d
  have h := consistent_afterMixed letters
  refine ⟨?_, fun document => ⟨h.apply_kept document, applied_add_skipped_apply ..⟩, ?_⟩
  · intro document before r rest _ d' fault hfault
    exact (h.hearAll mode before).takeUpJson_of_fault hfault
  · intro s _ bytes fault hparse
    have hheard : s.hear child bytes = .error fault := by
      simp only [Session.hear, applyBytes_eq, hparse]
      rfl
    refine ⟨hheard, fun reply hreply => ?_⟩
    simp only [Session.takeUp, hreply, hheard]

open Implicit (sentDevice sentLink)

/-- A child's device, taken up under both abstractions one after the other. -/
def shownTwice : List (Abstraction × Letter) :=
  [(.explicit, ⟨"a", .devices [sentDevice "of:1"]⟩), (.implicit, ⟨"a", .devices [sentDevice "of:1"]⟩)]

theorem skipped_leaves_no_trace_unmappedLink :
    let d := afterMixed shownTwice
    (d.takeUpJson .implicit "a" .link .added (sentLink "of:1" 1 "of:9" 1)).2.2
        = some (.table (.unmapped ⟨"of:9"⟩)) ∧
      d.takeUpJson .implicit "a" .link .added (sentLink "of:1" 1 "of:9" 1)
        = (d, [], some (.table (.unmapped ⟨"of:9"⟩))) := by
  intro d
  have hfault : (d.takeUpJson .implicit "a" .link .added (sentLink "of:1" 1 "of:9" 1)).2.2
      = some (.table (.unmapped ⟨"of:9"⟩)) := by decide +kernel
  exact ⟨hfault, (skipped_leaves_no_trace shownTwice .implicit "a").1
    (.links [sentLink "of:1" 1 "of:9" 1]) [] ⟨"a", .link, .added, sentLink "of:1" 1 "of:9" 1⟩ [] rfl _
    hfault⟩

end Domain

end Multidomain
