import Multidomain.Proofs.Orchestration.Meaning
import Multidomain.Proofs.Orchestration.SeededHistory

/-!
# Whose device an explicit id stands for

Under the explicit abstraction nothing but device entries touches the registry, and each gives its
explicit id an owner and a native id at one stroke. So an explicit id with an owner has a native id,
and both are those of the last entry that was applied for it.
-/

namespace Multidomain

namespace Explicit

/-- The report is a device entry with the native id, which is applied and appears under the explicit
id. -/
def Names (d : Domain) (r : Report) (explicit native : DeviceId) : Prop :=
  (d.takeUpJson .explicit r.child r.kind r.change r.value).2.2 = none
    ∧ ∃ entry, r.element? = some (.device entry) ∧ entry.id = native
      ∧ native.toExplicit = .ok explicit

/-- Of the device entries applied for the explicit id the last came from the child and had the native
id. -/
def LastNamed (history : List (Intake Report)) (explicit native : DeviceId) (child : String) : Prop :=
  Domain.LastWritten .explicit
    (fun d r (named : DeviceId × String) => Names d r explicit named.1 ∧ r.child = named.2)
    history (native, child)

theorem Names.unique {d : Domain} {r : Report} {explicit native explicit' native' : DeviceId}
    (h : Names d r explicit native) (h' : Names d r explicit' native') :
    explicit = explicit' ∧ native = native' := by
  obtain ⟨-, entry, hentry, rfl, hexplicit⟩ := h
  obtain ⟨-, entry', hentry', rfl, hexplicit'⟩ := h'
  obtain rfl : entry = entry' := by simpa [hentry] using hentry'
  exact ⟨Except.ok.inj (hexplicit.symm.trans hexplicit'), rfl⟩

/-! ### What one report does to the registry -/

theorem orchestratedScheme?_of_toExplicit {native explicit : DeviceId}
    (h : native.toExplicit = .ok explicit) :
    explicit.orchestratedScheme? = some DeviceId.explicitScheme := by
  unfold DeviceId.toExplicit at h
  cases hsplit : native.split with
  | error fault => simp [hsplit, Except.map] at h
  | ok parts =>
    simp only [hsplit, Except.map, Except.ok.injEq] at h
    rw [← h, DeviceId.orchestratedScheme?, DeviceId.scheme?_qualified _ (by decide)]
    rfl

theorem takeUp_device (child : String) (d : Domain) {entry : DeviceEntry} {explicit : DeviceId}
    (h : entry.id.toExplicit = .ok explicit) :
    (d.takeUp .explicit child (.device entry)).1.registry
        = (d.registry.setAlias explicit entry.id).setOwner explicit child
      ∧ (d.takeUp .explicit child (.device entry)).2.2 = none := by
  have hmeaning : Abstraction.explicit.meaning child d.registry (.device entry)
      = .ok ⟨(d.registry.setAlias explicit entry.id).setOwner explicit child,
          [.device { entry.toDevice with id := explicit }]⟩ := by
    simp only [Abstraction.meaning, meaning, h]
    rfl
  have haccepted : (Notice.device { entry.toDevice with id := explicit }).refusal? = none := by
    simp [Notice.refusal?, orchestratedScheme?_of_toExplicit h]
  rw [Domain.takeUp_of_ok hmeaning]
  simp [Topology.heedAll, haccepted]

theorem registry_of_meaning {child : String} {r : Registry} {e : Element} {m : Meaning}
    (h : meaning child r e = .ok m) (hdevice : ∀ entry, e ≠ .device entry) : m.registry = r := by
  cases e with
  | device entry => exact absurd rfl (hdevice entry)
  | link entry change =>
    cases change with
    | added =>
      obtain ⟨e, -, hmeaning⟩ := exists_of_bind_eq_ok h
      cases hmeaning
      rfl
    | removed =>
      obtain ⟨e, -, hmeaning⟩ := exists_of_bind_eq_ok h
      cases hmeaning
      rfl
  | host entry =>
    obtain ⟨id, -, h⟩ := exists_of_bind_eq_ok h
    obtain ⟨location, -, hmeaning⟩ := exists_of_bind_eq_ok h
    cases hmeaning
    rfl

theorem registry_takeUp {child : String} {d : Domain} {e : Element}
    (hdevice : ∀ entry, e ≠ .device entry) :
    (d.takeUp .explicit child e).1.registry = d.registry := by
  cases hmeaning : Abstraction.explicit.meaning child d.registry e with
  | error fault =>
    rw [Domain.takeUp_of_error hmeaning]
    rfl
  | ok m =>
    rw [Domain.takeUp_of_ok hmeaning]
    exact registry_of_meaning hmeaning hdevice

/-- A report gives an explicit id a native id and an owner, or it leaves the registry alone. -/
theorem registry_hear (d : Domain) (r : Report) :
    (∃ explicit native, Names d r explicit native
      ∧ (d.hear .explicit r).registry
        = (d.registry.setAlias explicit native).setOwner explicit r.child)
    ∨ ((∀ explicit native, ¬ Names d r explicit native)
      ∧ (d.hear .explicit r).registry = d.registry) := by
  unfold Domain.hear
  cases helement : r.element? with
  | none =>
    refine .inr ⟨?_, by rw [Domain.takeUpJson_of_no_element helement]⟩
    rintro explicit native ⟨-, entry, hentry, -⟩
    cases helement.symm.trans hentry
  | some e =>
    have hother : (∀ entry, e ≠ .device entry) → ∀ explicit native, ¬ Names d r explicit native := by
      rintro hdevice explicit native ⟨-, entry, hentry, -⟩
      exact hdevice entry (Option.some.inj (helement.symm.trans hentry))
    rw [Domain.takeUpJson_of_element helement]
    cases e with
    | device entry =>
      cases hid : entry.id.toExplicit with
      | error fault =>
        have hmeaning : Abstraction.explicit.meaning r.child d.registry (.device entry)
            = .error (.parse fault) := by
          simp only [Abstraction.meaning, meaning, hid]
          rfl
        refine .inr ⟨?_, by rw [Domain.takeUp_of_error hmeaning]; rfl⟩
        rintro explicit native ⟨-, entry', hentry', rfl, hexplicit⟩
        obtain rfl : entry = entry' := by simpa [helement] using hentry'
        cases hid.symm.trans hexplicit
      | ok explicit =>
        obtain ⟨hregistry, hfault⟩ := takeUp_device r.child d hid
        refine .inl ⟨explicit, entry.id, ⟨?_, entry, helement, rfl, hid⟩, hregistry⟩
        rw [Domain.takeUpJson_of_element helement, hfault]
    | link entry change =>
      exact .inr ⟨hother (by simp), registry_takeUp (by simp)⟩
    | host entry => exact .inr ⟨hother (by simp), registry_takeUp (by simp)⟩

/-- What the registry knows of an explicit id after a report is what the report says of it, if it says
anything, and what it knew before otherwise. -/
theorem lookups_hear (d : Domain) (r : Report) (explicit : DeviceId) :
    (∃ native, Names d r explicit native
      ∧ (d.hear .explicit r).registry.native? explicit = some native
      ∧ (d.hear .explicit r).registry.owner? explicit = some r.child)
    ∨ ((∀ native, ¬ Names d r explicit native)
      ∧ (d.hear .explicit r).registry.native? explicit = d.registry.native? explicit
      ∧ (d.hear .explicit r).registry.owner? explicit = d.registry.owner? explicit) := by
  obtain ⟨named, native, hnames, hregistry⟩ | ⟨hnone, hregistry⟩ := registry_hear d r
  · have hnative : (d.hear .explicit r).registry.native? explicit
        = if named = explicit then some native else d.registry.native? explicit := by
      rw [hregistry]
      exact Registry.native?_setAlias ..
    have howner : (d.hear .explicit r).registry.owner? explicit
        = if named = explicit then some r.child else d.registry.owner? explicit := by
      rw [hregistry]
      exact Registry.owner?_setOwner ..
    by_cases hsame : named = explicit
    · rw [if_pos hsame] at hnative howner
      exact .inl ⟨native, hsame ▸ hnames, hnative, howner⟩
    · rw [if_neg hsame] at hnative howner
      exact .inr ⟨fun _ hother => hsame (hnames.unique hother).1, hnative, howner⟩
  · exact .inr ⟨hnone explicit, by rw [hregistry], by rw [hregistry]⟩

/-! ### What every history comes to -/

theorem exists_native?_of_owner {history : List (Intake Report)} {explicit : DeviceId}
    {child : String} (h : (Domain.after .explicit history).registry.owner? explicit = some child) :
    ∃ native, (Domain.after .explicit history).registry.native? explicit = some native := by
  revert h
  refine Domain.after_induction (motive := fun _ d => d.registry.owner? explicit = some child →
    ∃ native, d.registry.native? explicit = some native) (fun h => nomatch (h : none = _)) ?_ history
  intro history intake ih howner
  cases intake with
  | seed s => exact ih howner
  | sent r =>
    obtain ⟨native, -, hnative, -⟩ | ⟨-, hnative, howner'⟩ :=
      lookups_hear (Domain.after .explicit history) r explicit
    · exact ⟨native, hnative⟩
    · obtain ⟨native, hold⟩ := ih (howner'.symm.trans howner)
      exact ⟨native, hnative.trans hold⟩

/-- The owner of a device is the child that named it last, and its native id the one that it was given
then. -/
theorem lastNamed_of_owner {history : List (Intake Report)} {explicit : DeviceId} {child : String}
    (h : (Domain.after .explicit history).registry.owner? explicit = some child) :
    ∃ native, (Domain.after .explicit history).registry.native? explicit = some native
      ∧ LastNamed history explicit native child := by
  obtain ⟨native, hnative⟩ := exists_native?_of_owner h
  refine ⟨native, hnative, ?_⟩
  apply Domain.lastWritten_of_reads fun d (named : DeviceId × String) =>
    d.registry.native? explicit = some named.1 ∧ d.registry.owner? explicit = some named.2
  case hempty =>
    rintro named ⟨hnone, -⟩
    exact nomatch (hnone : none = _)
  case hsow => exact fun d s named hnamed => hnamed
  case hhear =>
    rintro d r ⟨known, owner⟩ ⟨hknown, howner⟩
    obtain ⟨named, hnames, hnative, howner'⟩ | ⟨hnone, hnative, howner'⟩ := lookups_hear d r explicit
    · obtain rfl : named = known := Option.some.inj (hnative.symm.trans hknown)
      exact .inl ⟨hnames, Option.some.inj (howner'.symm.trans howner)⟩
    · exact .inr ⟨⟨hnative.symm.trans hknown, howner'.symm.trans howner⟩, fun b hb => hnone _ hb.1⟩
  case h => exact ⟨hnative, h⟩

end Explicit

end Multidomain
