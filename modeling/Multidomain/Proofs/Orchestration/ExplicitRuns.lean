import Multidomain.Proofs.Orchestration.Contents
import Multidomain.Proofs.Orchestration.ExplicitLinks
import Multidomain.Proofs.Orchestration.MixedHistory

/-!
# Runs of explicit elements

Under the explicit abstraction what an element announces depends on nothing but the element. So a run
of elements of one sort comes to a single list of writes: devices and links are put where they are new,
owners, native ids and hosts are put in any case, and lost links are erased.
-/

namespace Multidomain

/-- The registry without owners and explicit ids, which are all that explicit elements write. -/
def Registry.unnamed (r : Registry) : Registry :=
  { r with owners := .empty, natives := .empty, aliases := .empty }

theorem Registry.Aliased.same_aliases {r r' : Registry} (h : r.Aliased) (h' : r'.Aliased)
    (hnatives : r.natives.Same r'.natives) : r.aliases.Same r'.aliases := by
  rw [Table.same_iff] at hnatives ⊢
  intro native
  refine Option.ext fun explicit => ?_
  have hsame : r.native? explicit = r'.native? explicit := hnatives explicit
  exact h.explicit?_iff.trans (hsame ▸ h'.explicit?_iff.symm)

/-- Registries that differ in owners and explicit ids only. -/
theorem Registry.same_of_unnamed {r r' : Registry} (h : r.Aliased) (h' : r'.Aliased)
    (howners : r.owners.Same r'.owners) (hnatives : r.natives.Same r'.natives)
    (hunnamed : r.unnamed = r'.unnamed) : r.Same r' where
  owners := howners
  natives := hnatives
  aliases := h.same_aliases h' hnatives
  virtuals := .of_eq (congrArg Registry.virtuals hunnamed :)
  ports := .of_eq (congrArg Registry.ports hunnamed :)
  links := by
    have hlinks : r.links = r'.links := (congrArg Registry.links hunnamed :)
    rw [hlinks]
    exact .refl _
  hosts := .of_eq (congrArg Registry.hosts hunnamed :)
  virtualHosts := .of_eq (congrArg Registry.virtualHosts hunnamed :)

namespace Explicit

/-- A device of a child, under its native id and as it appears. -/
structure Named where
  child : String
  native : DeviceId
  device : Device

/-- The device that a report brings. -/
def named? (r : Report) : Option Named := do
  let entry ← DeviceEntry.read? r.value
  let id ← entry.id.toExplicit.toOption
  return { child := r.child, native := entry.id, device := { entry.toDevice with id } }

/-- The ends of the link that a report brings, as they appear. -/
def link? (r : Report) : Option Ends := do
  let entry ← LinkEntry.read? r.value
  (ends entry.ends).toOption

/-- The host that a report brings, as it appears. -/
def host? (r : Report) : Option Host := do
  let entry ← HostEntry.read? r.value
  let id ← entry.hostId.toOption
  let location ← (point entry.location).toOption
  return { id, addresses := entry.ips, location }

variable {registry : Registry} {r : Report} {reports : List Report}

theorem meaning?_device (hkind : r.kind = .device) : registry.meaning? .explicit r =
    (named? r).map fun n =>
      ⟨(registry.setAlias n.device.id n.native).setOwner n.device.id n.child, [.device n.device]⟩ := by
  unfold Registry.meaning? Report.element? Element.read? named?
  rw [hkind]
  cases DeviceEntry.read? r.value with
  | none => rfl
  | some entry =>
    simp only [Option.map_some, Option.bind_some, Option.bind_eq_bind, Abstraction.meaning, meaning]
    cases entry.id.toExplicit <;> rfl

theorem meaning?_link (hkind : r.kind = .link) : registry.meaning? .explicit r =
    (link? r).map fun e => ⟨registry, [linkNotice r.change e]⟩ := by
  unfold Registry.meaning? Report.element? Element.read? link?
  rw [hkind]
  cases LinkEntry.read? r.value with
  | none => rfl
  | some entry =>
    simp only [Option.map_some, Option.bind_some, Option.bind_eq_bind, Abstraction.meaning]
    cases r.change <;> rw [meaning] <;> cases ends entry.ends <;> rfl

theorem meaning?_host (hkind : r.kind = .host) : registry.meaning? .explicit r =
    (host? r).map fun host => ⟨registry, [.host host]⟩ := by
  unfold Registry.meaning? Report.element? Element.read? host?
  rw [hkind]
  cases HostEntry.read? r.value with
  | none => rfl
  | some entry =>
    simp only [Option.map_some, Option.bind_some, Option.bind_eq_bind, Abstraction.meaning, meaning]
    cases entry.hostId with
    | error fault => rfl
    | ok id => cases point entry.location <;> rfl

theorem hear_eq (d : Domain) (r : Report) :
    d.hear .explicit r = match d.registry.meaning? .explicit r with
      | none => d
      | some m => ⟨m.registry, d.topology.heedEach m.notices⟩ := by
  cases hmeaning : d.registry.meaning? .explicit r with
  | none => exact Domain.hear_of_meaningless hmeaning nofun
  | some m =>
    obtain ⟨e, -, hm⟩ := Registry.meaning?_eq_some hmeaning
    have haccepted := fun notice hnotice => (under_of_meaning hm notice hnotice).refusal?
    exact (Domain.takeUpJson_of_accepted hmeaning haccepted).1

/-- The registry after devices have been given owners and explicit ids. -/
def nameAll (registry : Registry) (named : List Named) : Registry :=
  named.foldl (fun r n => (r.setAlias n.device.id n.native).setOwner n.device.id n.child) registry

theorem nameAll_append (registry : Registry) (first second : List Named) :
    nameAll registry (first ++ second) = nameAll (nameAll registry first) second :=
  List.foldl_append

theorem owners_nameAll (registry : Registry) (named : List Named) :
    (nameAll registry named).owners
      = registry.owners.putAll (named.map fun n => (n.device.id, n.child)) := by
  induction named generalizing registry with
  | nil => rfl
  | cons n rest ih => exact ih ((registry.setAlias n.device.id n.native).setOwner n.device.id n.child)

theorem natives_nameAll (registry : Registry) (named : List Named) :
    (nameAll registry named).natives
      = registry.natives.putAll (named.map fun n => (n.device.id, n.native)) := by
  induction named generalizing registry with
  | nil => rfl
  | cons n rest ih => exact ih ((registry.setAlias n.device.id n.native).setOwner n.device.id n.child)

theorem unnamed_nameAll (registry : Registry) (named : List Named) :
    (nameAll registry named).unnamed = registry.unnamed := by
  induction named generalizing registry with
  | nil => rfl
  | cons n rest ih => exact ih ((registry.setAlias n.device.id n.native).setOwner n.device.id n.child)

/-! ### Runs of one sort -/

theorem hearAll_devices_eq (d : Domain) (hkind : ∀ r ∈ reports, r.kind = .device) :
    d.hearAll .explicit reports =
      { registry := nameAll d.registry (reports.filterMap named?)
        topology := { d.topology with
          devices := d.topology.devices.putNewAll
            ((reports.filterMap named?).map Named.device) } } := by
  rw [Domain.hearAll_eq_foldl named? fun d n =>
    { registry := (d.registry.setAlias n.device.id n.native).setOwner n.device.id n.child
      topology := (d.topology.connectDevice n.device).1 }]
  · generalize reports.filterMap named? = named
    induction named generalizing d with
    | nil => rfl
    | cons n rest ih =>
      rw [List.foldl_cons, ih, Topology.connectDevice_eq]
      rfl
  · intro r hr d
    rw [hear_eq, meaning?_device (hkind r hr)]
    cases named? r <;> rfl

theorem hearAll_links_eq (d : Domain) (hkind : ∀ r ∈ reports, r.kind = .link)
    (hadded : ∀ r ∈ reports, r.change = .added) :
    d.hearAll .explicit reports =
      { d with topology := { d.topology with
          links := d.topology.links.putNewAll
            (((reports.filterMap link?).filter d.topology.reaches).map .direct) } } := by
  rw [Domain.hearAll_eq_foldl link? fun d e =>
    { d with topology := (d.topology.detectLink (.direct e)).1 }]
  · generalize reports.filterMap link? = ends
    induction ends generalizing d with
    | nil => rfl
    | cons e rest ih =>
      have hsplit : (e :: rest).filter d.topology.reaches
          = [e].filter d.topology.reaches ++ rest.filter d.topology.reaches :=
        List.filter_append [e] rest
      rw [List.foldl_cons, ih, Topology.detectLink_eq, hsplit, List.map_append,
        Roster.putNewAll_append]
      rfl
  · intro r hr d
    rw [hear_eq, meaning?_link (hkind r hr), hadded r hr]
    cases link? r <;> rfl

theorem hearAll_lostLinks_eq (d : Domain) (hkind : ∀ r ∈ reports, r.kind = .link)
    (hremoved : ∀ r ∈ reports, r.change = .removed) :
    d.hearAll .explicit reports =
      { d with topology := { d.topology with
          links := d.topology.links.eraseAll (reports.filterMap link?) } } := by
  rw [Domain.hearAll_eq_foldl link? fun d e => { d with topology := (d.topology.loseLink e).1 }]
  · generalize reports.filterMap link? = ends
    induction ends generalizing d with
    | nil => rfl
    | cons e rest ih =>
      rw [List.foldl_cons, ih, Topology.loseLink_eq]
      rfl
  · intro r hr d
    rw [hear_eq, meaning?_link (hkind r hr), hremoved r hr]
    cases link? r <;> rfl

theorem hearAll_hosts_eq (d : Domain) (hkind : ∀ r ∈ reports, r.kind = .host) :
    d.hearAll .explicit reports =
      { d with topology := { d.topology with
          hosts := d.topology.hosts.putAll
            ((reports.filterMap host?).filter fun h => d.topology.knows h.location.device) } } := by
  rw [Domain.hearAll_eq_foldl host? fun d h => { d with topology := (d.topology.detectHost h).1 }]
  · generalize reports.filterMap host? = hosts
    induction hosts generalizing d with
    | nil => rfl
    | cons h rest ih =>
      have hsplit : (h :: rest).filter (fun h => d.topology.knows h.location.device)
          = [h].filter (fun h => d.topology.knows h.location.device)
            ++ rest.filter (fun h => d.topology.knows h.location.device) :=
        List.filter_append [h] rest
      rw [List.foldl_cons, ih, Topology.detectHost_eq, hsplit, Roster.putAll_append]
      rfl
  · intro r hr d
    rw [hear_eq, meaning?_host (hkind r hr)]
    cases host? r <;> rfl

end Explicit

end Multidomain
