import Multidomain.Proofs.Orchestration.ExplicitRuns

/-!
# Names that devices share

Under the explicit abstraction a device appears under the part of its native id that stands after the
scheme, whoever reports it. The tables go by this name alone: a later device entry with the same part
takes over the native id and the owner, while the topology keeps the device as the first entry described
it. So the devices that a node takes over keep names of their own just as long as no two of them have the
same part (`names_kept_iff`).
-/

namespace Multidomain

namespace Explicit

/-- The report is a device entry that was applied at its turn, as this child's device with this native
id, and in this form. -/
def TakenOver (reports : List Report) (n : Named) : Prop :=
  ∃ before r rest, reports = before ++ r :: rest
    ∧ ((Domain.empty.hearAll .explicit before).takeUpJson .explicit r.child r.kind r.change
        r.value).2.2 = none
    ∧ ∃ entry id, r.element? = some (.device entry) ∧ entry.id.toExplicit = .ok id
      ∧ n = ⟨r.child, entry.id, { entry.toDevice with id }⟩

/-- The device that a report brings, where it brings one. -/
def device? (r : Report) : Option Named :=
  if r.kind = .device then named? r else none

/-- The devices that the reports bring, in the order in which they do. -/
def devicesOf (reports : List Report) : List Named := reports.filterMap device?

/-- The device that was the last to be reported under an explicit id. -/
def lastUnder? (id : DeviceId) (named : List Named) : Option Named :=
  named.reverse.find? fun n => n.device.id = id

variable {d : Domain} {r : Report} {reports : List Report} {n m : Named} {id : DeviceId}

/-! ### The devices that a history brings -/

theorem device?_eq_some_iff :
    device? r = some n ↔ ∃ entry id, r.element? = some (.device entry)
      ∧ entry.id.toExplicit = .ok id ∧ n = ⟨r.child, entry.id, { entry.toDevice with id }⟩ := by
  unfold device? Report.element? Element.read?
  cases hkind : r.kind with
  | device =>
    simp only [if_true, named?, Option.bind_eq_bind, Option.bind_eq_some_iff, Option.map_eq_some_iff]
    constructor
    · rintro ⟨entry, hentry, id, hid, ⟨⟩⟩
      refine ⟨entry, id, ⟨entry, hentry, rfl⟩, ?_, rfl⟩
      cases hresult : entry.id.toExplicit with
      | error fault => simp [hresult, Except.toOption] at hid
      | ok id' => simpa [hresult, Except.toOption] using hid
    · rintro ⟨entry, id, ⟨_, hentry, ⟨⟩⟩, hid, rfl⟩
      exact ⟨entry, hentry, id, by rw [hid]; rfl, rfl⟩
  | link | host => simp

/-- Every device entry with a well-formed id is applied. -/
theorem fault_of_device? (d : Domain) (h : device? r = some n) :
    (d.takeUpJson .explicit r.child r.kind r.change r.value).2.2 = none := by
  obtain ⟨entry, id, helement, hid, -⟩ := device?_eq_some_iff.1 h
  rw [Domain.takeUpJson_of_element helement]
  exact (takeUp_device r.child d hid).2

theorem mem_devicesOf_iff : n ∈ devicesOf reports ↔ TakenOver reports n := by
  rw [devicesOf, List.mem_filterMap]
  constructor
  · rintro ⟨r, hr, hdevice⟩
    obtain ⟨before, rest, hsplit⟩ := List.append_of_mem hr
    exact ⟨before, r, rest, hsplit, fault_of_device? _ hdevice, device?_eq_some_iff.1 hdevice⟩
  · rintro ⟨before, r, rest, rfl, -, hdevice⟩
    exact ⟨r, by simp, device?_eq_some_iff.2 hdevice⟩

/-- Two devices appear under one id when their native ids have the same part after the scheme. -/
theorem id_eq_id_iff (hn : n ∈ devicesOf reports) (hm : m ∈ devicesOf reports) :
    n.device.id = m.device.id ↔ n.native.localPart = m.native.localPart := by
  have hid : ∀ k ∈ devicesOf reports, k.device.id = k.native.requalified := by
    intro k hk
    obtain ⟨-, -, -, -, -, entry, id, -, hexplicit, rfl⟩ := mem_devicesOf_iff.1 hk
    exact DeviceId.eq_requalified_of_toExplicit hexplicit
  rw [hid n hn, hid m hm]
  exact ⟨DeviceId.localPart_eq_of_requalified_eq, fun h => congrArg (DeviceId.qualified _) h⟩

/-! ### What the node knows of them -/

/-- A device entry names a device and makes it known; nothing else names or makes known anything. -/
theorem names_hear (d : Domain) (r : Report) :
    (d.hear .explicit r).registry = nameAll d.registry (device? r).toList
      ∧ (d.hear .explicit r).topology.devices
        = d.topology.devices.putNewAll ((device? r).toList.map Named.device) := by
  rw [hear_eq, device?]
  cases hkind : r.kind with
  | device =>
    rw [meaning?_device hkind, if_pos rfl]
    cases named? r with
    | none => exact ⟨rfl, rfl⟩
    | some n =>
      exact ⟨rfl, congrArg Topology.devices (Topology.connectDevice_eq d.topology n.device)⟩
  | link =>
    rw [meaning?_link hkind, if_neg (by decide)]
    cases link? r with
    | none => exact ⟨rfl, rfl⟩
    | some e => exact ⟨rfl, devices_heed_linkNotice d.topology r.change e⟩
  | host =>
    rw [meaning?_host hkind, if_neg (by decide)]
    cases host? r with
    | none => exact ⟨rfl, rfl⟩
    | some h =>
      refine ⟨rfl, ?_⟩
      change (d.topology.detectHost h).1.devices = d.topology.devices
      rw [Topology.detectHost_eq]

theorem names_hearAll (d : Domain) (reports : List Report) :
    (d.hearAll .explicit reports).registry = nameAll d.registry (devicesOf reports)
      ∧ (d.hearAll .explicit reports).topology.devices
        = d.topology.devices.putNewAll ((devicesOf reports).map Named.device) := by
  induction reports generalizing d with
  | nil => exact ⟨rfl, rfl⟩
  | cons r rest ih =>
    obtain ⟨hregistry, hdevices⟩ := names_hear d r
    obtain ⟨hregistries, hdeviceses⟩ := ih (d.hear .explicit r)
    have hcons : devicesOf (r :: rest) = (device? r).toList ++ devicesOf rest := by
      rw [devicesOf, List.filterMap_cons]
      cases device? r <;> rfl
    rw [hregistry, ← nameAll_append, ← hcons] at hregistries
    rw [hdevices, ← Roster.putNewAll_append, ← List.map_append, ← hcons] at hdeviceses
    exact ⟨hregistries, hdeviceses⟩

theorem get?_putAll_names {ν : Type} (named : List Named) (value : Named → ν) (id : DeviceId) :
    Table.get? ((Roster.empty : Table DeviceId ν).putAll
        (named.map fun n => (n.device.id, value n))) id
      = (lastUnder? id named).map value := by
  rw [Table.get?, Roster.find?_putAll_map, Option.map_map]
  rfl

/-- What stands under an id: the owner and the native id of the last device that was reported under
it, and the form of the first. -/
theorem lookups_hearAll (reports : List Report) (id : DeviceId) :
    let d := Domain.empty.hearAll .explicit reports
    d.registry.owner? id = (lastUnder? id (devicesOf reports)).map Named.child
      ∧ d.registry.native? id = (lastUnder? id (devicesOf reports)).map Named.native
      ∧ d.topology.devices.find? id
        = ((devicesOf reports).map Named.device).find? fun device => device.id = id := by
  intro d
  obtain ⟨hregistry, hdevices⟩ := names_hearAll .empty reports
  refine ⟨?_, ?_, ?_⟩
  · rw [Registry.owner?, hregistry, owners_nameAll]
    exact get?_putAll_names ..
  · rw [Registry.native?, hregistry, natives_nameAll]
    exact get?_putAll_names ..
  · rw [hdevices, Roster.find?_putNewAll]
    rfl

theorem exists_lastUnder? {named : List Named} (h : n ∈ named) :
    ∃ last ∈ named, lastUnder? n.device.id named = some last ∧ last.device.id = n.device.id := by
  have hsome : (lastUnder? n.device.id named).isSome := by
    rw [lastUnder?, List.find?_isSome]
    exact ⟨n, List.mem_reverse.2 h, by simp⟩
  obtain ⟨last, hlast⟩ := Option.isSome_iff_exists.1 hsome
  have hid := List.find?_some hlast
  exact ⟨last, List.mem_reverse.1 (List.mem_of_find?_eq_some hlast), hlast, by simpa using hid⟩

/-- **What becomes of devices with shared names.** Whatever children send, what stands under an explicit
id is the last child and the last native id and the first form under which a device was taken over. So
every device keeps its owner and its native id, and different devices have different ids, exactly when no
two devices that differ in child or native id have the same part after the scheme. -/
theorem names_kept_iff (letters : List Letter) :
    let d := Domain.afterLetters .explicit letters
    let named := devicesOf (reportsOf letters)
    let apart := ∀ n ∈ named, ∀ m ∈ named, n.child ≠ m.child ∨ n.native ≠ m.native →
      n.native.localPart ≠ m.native.localPart
    (∀ n, n ∈ named ↔ TakenOver (reportsOf letters) n)
      ∧ (∀ id, d.registry.owner? id = (lastUnder? id named).map Named.child
        ∧ d.registry.native? id = (lastUnder? id named).map Named.native
        ∧ d.topology.devices.find? id = (named.map Named.device).find? fun device => device.id = id)
      ∧ ((∀ n ∈ named, ∀ m ∈ named, n.child ≠ m.child ∨ n.native ≠ m.native →
          n.device.id ≠ m.device.id) ↔ apart)
      ∧ ((∀ n ∈ named, d.registry.native? n.device.id = some n.native
          ∧ d.registry.owner? n.device.id = some n.child) ↔ apart) := by
  intro d named apart
  have hlookups : ∀ id, d.registry.owner? id = (lastUnder? id named).map Named.child
      ∧ d.registry.native? id = (lastUnder? id named).map Named.native
      ∧ d.topology.devices.find? id
        = (named.map Named.device).find? fun device => device.id = id := by
    intro id
    simp only [d, Domain.afterLetters_eq_hearAll]
    exact lookups_hearAll (reportsOf letters) id
  refine ⟨fun n => mem_devicesOf_iff, hlookups, ?_, fun hkept => ?_, fun hapart n hn => ?_⟩
  · refine forall₂_congr fun n hn => forall₂_congr fun m hm => imp_congr_right fun _ => ?_
    exact not_congr (id_eq_id_iff hn hm)
  · -- what stands under a shared id is the same for both
    intro n hn m hm hdiffer hpart
    obtain ⟨hnative, howner⟩ := hkept n hn
    obtain ⟨hnative', howner'⟩ := hkept m hm
    rw [(id_eq_id_iff hn hm).2 hpart] at hnative howner
    have hchild : n.child = m.child := Option.some.inj (howner.symm.trans howner')
    have hsame : n.native = m.native := Option.some.inj (hnative.symm.trans hnative')
    exact hdiffer.elim (· hchild) (· hsame)
  · obtain ⟨last, hlast, hfound, hid⟩ := exists_lastUnder? hn
    have hpart := (id_eq_id_iff hn hlast).1 hid.symm
    obtain ⟨howner, hnative, -⟩ := hlookups n.device.id
    rw [hfound, Option.map_some] at howner hnative
    have hsame : ¬ (n.child ≠ last.child ∨ n.native ≠ last.native) :=
      fun hdiffer => hapart n hn last hlast hdiffer hpart
    rw [not_or, not_not, not_not] at hsame
    exact ⟨hsame.2 ▸ hnative, hsame.1 ▸ howner⟩

/-- Two children have a device of one name. -/
def bothHave : List Letter :=
  let device := DeviceEntry.toJson { id := ⟨"of:1"⟩ }
  [⟨"10.0.0.2", .devices [device]⟩, ⟨"10.0.0.3", .devices [device]⟩]

/-- Devices of different children need not have different ids, nor keep the child that they are from. -/
theorem device_lost_to_other_child :
    ¬ ∀ letters n, TakenOver (reportsOf letters) n →
      (∀ m, TakenOver (reportsOf letters) m → n.child ≠ m.child ∨ n.native ≠ m.native →
        n.device.id ≠ m.device.id)
      ∧ (Domain.afterLetters .explicit letters).registry.native? n.device.id = some n.native
      ∧ (Domain.afterLetters .explicit letters).registry.owner? n.device.id = some n.child := by
  intro h
  have howner : ∀ n ∈ devicesOf (reportsOf bothHave),
      (Domain.afterLetters .explicit bothHave).registry.owner? n.device.id = some n.child :=
    fun n hn => (h bothHave n (mem_devicesOf_iff.1 hn)).2.2
  revert howner
  decide +kernel

end Explicit

end Multidomain
