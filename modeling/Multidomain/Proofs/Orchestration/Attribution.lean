import Multidomain.Proofs.Orchestration.Footing
import Multidomain.Proofs.Orchestration.ImplicitRuns

/-!
# Whose device, whose host

A node that shows every child as one virtual device keeps one table for all its children, from the
devices that they report to the virtual devices of the children. The devices go by the names that they
have in their own domains, so that a device belongs to the child that was the last to report it. The same
table says where a host appears: at the virtual device of whoever reported the device of its place last,
and not of the child that reports the host. The two are the same as long as no two children report
devices of one name.
-/

namespace Multidomain

namespace Implicit

open ChildAddress (virtualDevice)

/-- The child that was the last to report the device. -/
def reporter? (reports : List Report) (device : DeviceId) : Option String :=
  (reports.reverse.find? fun r => r.device? = some device).map Report.child

variable {reports before : List Report} {r : Report} {device : DeviceId}

theorem reporter?_concat (reports : List Report) (r : Report) (device : DeviceId) :
    reporter? (reports ++ [r]) device =
      if r.device? = some device then some r.child else reporter? reports device := by
  rw [reporter?, List.reverse_append, List.reverse_singleton, List.singleton_append,
    List.find?_cons]
  by_cases h : r.device? = some device <;> simp [h, reporter?]

/-- What devices belong to is decided by their last reports. -/
theorem virtual?_after (reports : List Report) (device : DeviceId) :
    (after reports).registry.virtual? device = (reporter? reports device).map virtualDevice := by
  induction reports using List.reverseRecOn with
  | nil => rfl
  | append_singleton reports r ih =>
    rw [after, Domain.hearAll_concat, (coherent_hearAll reports).virtual?_hear, reporter?_concat, ih]
    split <;> rfl

theorem exists_reporter? (hr : r ∈ reports) (hdevice : r.device? = some device) :
    ∃ last, reporter? reports device = some last := by
  rw [← Option.isSome_iff_exists, reporter?, Option.isSome_map, List.find?_isSome]
  exact ⟨r, List.mem_reverse.2 hr, by simpa using hdevice⟩

theorem read?_of_host {entry : HostEntry} (h : r.element? = some (.host entry)) :
    r.kind = .host ∧ HostEntry.read? r.value = some entry := by
  rw [Report.element?] at h
  cases hkind : r.kind with
  | host =>
    rw [hkind] at h
    obtain ⟨entry', hread, ⟨⟩⟩ := Option.map_eq_some_iff.1 h
    exact ⟨rfl, hread⟩
  | device | link =>
    rw [hkind] at h
    obtain ⟨_, -, ⟨⟩⟩ := Option.map_eq_some_iff.1 h

/-- A host that is taken up appears at the virtual device of the child that reported the device of its
place last. -/
theorem host_of_applied {entry : HostEntry} (helement : r.element? = some (.host entry))
    (happlied : ((after before).takeUpJson .implicit r.child r.kind r.change r.value).2.2 = none) :
    ∃ id last port, entry.hostId = .ok id ∧ reporter? before entry.location.device = some last ∧
      ((after before).hear .implicit r).topology.hosts.find? id =
        some { id, addresses := entry.ips, location := ⟨virtualDevice last, port⟩ } := by
  have hconsistent : (after before).Consistent := Domain.consistent_empty.hearAll .implicit before
  obtain ⟨hkind, hread⟩ := read?_of_host helement
  rw [hear_host hconsistent hkind]
  cases hplaced : placed? (after before).registry r with
  | none =>
    have hmeaningless := meaning?_host (after before).registry hkind
    rw [hplaced, Option.map_none] at hmeaningless
    obtain ⟨fault, htaken⟩ :=
      Domain.takeUpJson_of_meaningless hmeaningless fun _ => hconsistent.housed
    rw [htaken] at happlied
    cases happlied
  | some p =>
    obtain ⟨entry', hentry, hrest⟩ := Option.bind_eq_some_iff.1 hplaced
    obtain rfl : entry = entry' := Option.some.inj (hread.symm.trans hentry)
    obtain ⟨id, hid, hplace⟩ := Option.bind_eq_some_iff.1 hrest
    obtain ⟨virtual, hseat, ⟨⟩⟩ := Option.bind_eq_some_iff.1 hplace
    have hvirtual := (Registry.seat?_eq_some hseat).1
    rw [virtual?_after, Option.map_eq_some_iff] at hvirtual
    obtain ⟨last, hlast, hdevice⟩ := hvirtual
    have hok : entry.hostId = .ok id := by
      cases hresult : entry.hostId with
      | error fault => simp [hresult, Except.toOption] at hid
      | ok id' =>
        rw [hresult] at hid
        exact congrArg Except.ok (Option.some.inj hid)
    refine ⟨id, last, virtual.port, hok, hlast, ?_⟩
    rw [hdevice]
    exact Roster.find?_put_self ..

/-- A device belongs to a child that has reported it, and a host that the child has reported appears at
the child's virtual device, exactly when the child that reported the device last has this virtual device
too. -/
theorem attributed_to_reporter_iff (letters : List Letter) :
    (∀ r ∈ reportsOf letters, ∀ device, r.device? = some device →
      ∃ last, reporter? (reportsOf letters) device = some last ∧
        ((Domain.afterLetters .implicit letters).registry.virtual? device
            = some (virtualDevice r.child)
          ↔ virtualDevice last = virtualDevice r.child)) ∧
    ∀ before r rest entry, reportsOf letters = before ++ r :: rest →
      r.element? = some (.host entry) →
      ((after before).takeUpJson .implicit r.child r.kind r.change r.value).2.2 = none →
      ∃ id host last, entry.hostId = .ok id ∧
        ((after before).hear .implicit r).topology.hosts.find? id = some host ∧
        reporter? before entry.location.device = some last ∧
        (host.location.device = virtualDevice r.child ↔ virtualDevice last = virtualDevice r.child) := by
  constructor
  · intro r hr device hdevice
    obtain ⟨last, hlast⟩ := exists_reporter? hr hdevice
    refine ⟨last, hlast, ?_⟩
    rw [Domain.afterLetters_eq_hearAll, virtual?_after, hlast, Option.map_some, Option.some_inj]
  · intro before r rest entry _ helement happlied
    obtain ⟨id, last, port, hid, hlast, hhost⟩ := host_of_applied helement happlied
    exact ⟨id, _, last, hid, hhost, hlast, Iff.rfl⟩

/-- A host as a child sends it. -/
def sentHost (mac device : String) (port : PortNumber) : Json :=
  HostEntry.toJson { mac, vlan := "None", location := ⟨⟨device⟩, port⟩ }

/-- Two children have a device of one name, and the first reports a host at its own. -/
def sharedName : List Letter :=
  [⟨"10.0.0.2", .devices [sentDevice "of:1"]⟩,
   ⟨"10.0.0.3", .devices [sentDevice "of:1"]⟩,
   ⟨"10.0.0.2", .hosts [sentHost "00:00:00:00:00:01" "of:1" 1]⟩]

/-- The host appears at the virtual device of the other child, to which the device belongs. -/
theorem host_at_other_child :
    virtualDevice "10.0.0.2" ≠ virtualDevice "10.0.0.3" ∧
    (∃ r ∈ reportsOf sharedName, r.child = "10.0.0.2" ∧ r.device? = some ⟨"of:1"⟩) ∧
    (Domain.afterLetters .implicit sharedName).registry.virtual? ⟨"of:1"⟩
      = some (virtualDevice "10.0.0.3") ∧
    (Domain.afterLetters .implicit sharedName).topology.hosts.items.map (·.location)
      = [⟨virtualDevice "10.0.0.3", 1⟩] := by
  decide +kernel

end Implicit

end Multidomain
