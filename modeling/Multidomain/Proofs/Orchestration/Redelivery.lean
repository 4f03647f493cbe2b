import Multidomain.Proofs.Orchestration.ExplicitRuns
import Multidomain.Proofs.Orchestration.ImplicitRuns
import Multidomain.Proofs.Orchestration.LinkRuns

/-!
# Documents that are delivered twice

A document that has been received is taken up once at most; but the same document may be received twice.
A document that reaches a node twice leaves the same behind as one that reaches it once. For devices,
hosts and explicit links a document comes to lists of writes that do not depend on what is there, apart
from the ports of hosts, which stay once they are given; the same writes done twice are the same writes.
What explicit ids a node knows is read off the native ids, whose table is written in that way. Folded
links are the exception, and there the argument is that of `Coherent.same_twice`.
-/

namespace Multidomain

/-- What has been received is taken up once: whatever has happened meanwhile, another attempt changes
nothing, tells nothing and counts nothing. -/
theorem Domain.applyOnce_again (mode mode' : Abstraction) (child child' : String) (d d' : Domain)
    (receipt : Receipt) :
    let used := (d.applyOnce mode child receipt).1
    d'.applyOnce mode' child' used = (used, d', [], {}) := by
  have hspent : (d.applyOnce mode child receipt).1.spent = true := by
    unfold applyOnce
    cases hspent : receipt.spent with
    | true => exact hspent
    | false => rfl
  intro used
  rw [applyOnce, hspent]

namespace Explicit

variable {d : Domain} {reports : List Report}

theorem same_twice_devices (h : d.Consistent) (hkind : ∀ r ∈ reports, r.kind = .device) :
    ((d.hearAll .explicit reports).hearAll .explicit reports).Same (d.hearAll .explicit reports) := by
  have honce := h.hearAll .explicit reports
  have htwice := honce.hearAll .explicit reports
  have hregistry : ∀ d : Domain, (d.hearAll .explicit reports).registry
      = nameAll d.registry (reports.filterMap named?) := fun d => by rw [hearAll_devices_eq d hkind]
  constructor
  case registry =>
    have howners : ∀ d : Domain, (d.hearAll .explicit reports).registry.owners = _ :=
      fun d => (congrArg Registry.owners (hregistry d)).trans (owners_nameAll ..)
    have hnatives : ∀ d : Domain, (d.hearAll .explicit reports).registry.natives = _ :=
      fun d => (congrArg Registry.natives (hregistry d)).trans (natives_nameAll ..)
    refine Registry.same_of_unnamed htwice.aliased honce.aliased ?_ ?_ ?_
    · rw [howners (d.hearAll .explicit reports), howners d]
      exact Roster.same_putAll_putAll _ _
    · rw [hnatives (d.hearAll .explicit reports), hnatives d]
      exact Roster.same_putAll_putAll _ _
    · rw [hregistry (d.hearAll .explicit reports), unnamed_nameAll]
  case topology =>
    rw [hearAll_devices_eq (d.hearAll .explicit reports) hkind, hearAll_devices_eq d hkind]
    exact ⟨(Roster.same_putNewAll_putNewAll _ _), .refl _, .refl _, .refl _⟩

theorem same_twice_hosts (hkind : ∀ r ∈ reports, r.kind = .host) :
    ((d.hearAll .explicit reports).hearAll .explicit reports).Same (d.hearAll .explicit reports) := by
  rw [hearAll_hosts_eq (d.hearAll .explicit reports) hkind, hearAll_hosts_eq d hkind]
  exact ⟨.refl _, .refl _, .refl _, (Roster.same_putAll_putAll _ _), .refl _⟩

theorem same_twice_links {added removed : List Report} (hnews : LinkNews added removed) :
    let reports := added ++ removed
    ((d.hearAll .explicit reports).hearAll .explicit reports).Same (d.hearAll .explicit reports) := by
  intro reports
  have hrun : ∀ d : Domain, d.hearAll .explicit reports = _ := fun d =>
    (Domain.hearAll_append d added removed).trans
      (hearAll_lostLinks_eq _ (fun r hr => hnews.kind r (List.mem_append_right _ hr)) hnews.removed)
  have hadded : ∀ d : Domain, d.hearAll .explicit added = _ := fun d =>
    hearAll_links_eq d (fun r hr => hnews.kind r (List.mem_append_left _ hr)) hnews.added
  rw [hrun (d.hearAll .explicit reports), hrun d, hadded d, hadded]
  exact ⟨.refl _, .refl _, (Roster.same_eraseAll_putNewAll _ _ _), .refl _, .refl _⟩

end Explicit

namespace Implicit

variable {d : Domain} {reports : List Report}

theorem same_twice_devices (hkind : ∀ r ∈ reports, r.kind = .device) :
    ((d.hearAll .implicit reports).hearAll .implicit reports).Same (d.hearAll .implicit reports) := by
  rw [hearAll_devices_eq (d.hearAll .implicit reports) hkind, hearAll_devices_eq d hkind]
  constructor
  case registry =>
    exact d.registry.same_of_devices (Roster.same_putAll_putAll _ _) (Roster.same_putAll_putAll _ _)
      (Roster.same_putNewAll_putNewAll _ _)
  case topology =>
    exact ⟨(Roster.same_putNewAll_putNewAll _ _), .refl _, .refl _, .refl _⟩

/-- Hosts told again are given the ports that they have. -/
theorem same_twice_hosts (h : d.Consistent) (hkind : ∀ r ∈ reports, r.kind = .host) :
    ((d.hearAll .implicit reports).hearAll .implicit reports).Same (d.hearAll .implicit reports) := by
  have hconsistent := h.hearAll .implicit reports
  obtain ⟨honce, -, hheld⟩ := hearAll_hosts_eq h hkind rfl
  obtain ⟨htwice, hlater, -⟩ := hearAll_hosts_eq hconsistent hkind rfl
  have hports := ports_hearAll_hosts hconsistent hkind hheld
  rw [placed?_congr hlater.virtuals hports, hports] at htwice
  generalize reports.filterMap (placed? (d.hearAll .implicit reports).registry) = placements
    at honce htwice
  have hhosts := congrArg (fun d => d.registry.hosts) honce
  have hvirtualHosts := congrArg (fun d => d.registry.virtualHosts) honce
  have hshown := congrArg (fun d => d.topology.hosts) honce
  simp only at hhosts hvirtualHosts hshown
  rw [htwice]
  constructor
  case registry =>
    exact {
      owners := .refl _
      natives := .refl _
      aliases := .refl _
      virtuals := .refl _
      ports := .refl _
      links := .refl _
      hosts := by rw [hhosts]; exact Roster.same_putAll_putAll _ _
      virtualHosts := by rw [hvirtualHosts]; exact Roster.same_putAll_putAll _ _ }
  case topology =>
    exact ⟨.refl _, .refl _, by rw [hshown]; exact Roster.same_putAll_putAll _ _, .refl _⟩

/-- Links told again change nothing. On the virtual side the two runs agree because they set and clear
the same flags, and no other link is concerned. -/
theorem same_twice_links (h : d.Consistent) {added removed : List Report}
    (hnews : LinkNews added removed) :
    let reports := added ++ removed
    ((d.hearAll .implicit reports).hearAll .implicit reports).Same (d.hearAll .implicit reports) := by
  intro reports
  have honce := h.hearAll .implicit reports
  have hside := h.coherent.same_twice hnews
  change ((d.virtualSide.hearAll .implicit reports).hearAll .implicit reports).Same
    (d.virtualSide.hearAll .implicit reports) at hside
  rw [← h.virtualSide_hearAll, ← honce.virtualSide_hearAll] at hside
  refine ⟨hside.registry, hside.topology.devices, ?_, hside.topology.hosts, hside.topology.flows⟩
  exact Roster.Same.of_restrict Ends.isVirtual hside.topology.links
    (.of_eq (honce.otherLinks_hearAll reports))

end Implicit

namespace Domain

/-- **Redelivery is absorbed.** Whatever documents a node has taken up, each under an abstraction of
its own, a further document taken up twice leaves the same tables and the same topology behind as the
document taken up once. -/
theorem apply_twice_same (letters : List (Abstraction × Letter)) (mode : Abstraction) (child : String)
    (document : TopologyDocument) :
    let once := ((afterMixed letters).apply mode child document).1
    ((once.apply mode child document).1).Same once := by
  have h := consistent_afterMixed letters
  generalize afterMixed letters = d at h
  intro once
  have hrun : ∀ d : Domain, (d.apply mode child document).1 = _ :=
    fun d => apply_fst d ⟨child, document⟩
  rw [hrun once, show once = _ from hrun d]
  -- a document of links is one of link changes without removals
  have hlinks : ∀ added removed : List Json, LinkNews
      (added.map fun value => ⟨child, .link, .added, value⟩)
      (removed.map fun value => ⟨child, .link, .removed, value⟩) := by
    intro added removed
    exact ⟨by simp [or_imp, forall_and], by simp, by simp⟩
  cases document with
  | devices elements =>
    cases mode with
    | explicit => exact Explicit.same_twice_devices h (by simp [Letter.reports])
    | implicit => exact Implicit.same_twice_devices (by simp [Letter.reports])
  | links elements =>
    have hnews := hlinks elements []
    have hsame : Letter.reports ⟨child, .links elements⟩ = _ ++ [] := (List.append_nil _).symm
    rw [hsame]
    cases mode with
    | explicit => exact Explicit.same_twice_links hnews
    | implicit => exact Implicit.same_twice_links h hnews
  | hosts elements =>
    cases mode with
    | explicit => exact Explicit.same_twice_hosts (by simp [Letter.reports])
    | implicit => exact Implicit.same_twice_hosts h (by simp [Letter.reports])
  | edgeUpdates updates =>
    have hnews := hlinks updates.added updates.deleted
    cases mode with
    | explicit => exact Explicit.same_twice_links hnews
    | implicit => exact Implicit.same_twice_links h hnews

end Domain

end Multidomain
