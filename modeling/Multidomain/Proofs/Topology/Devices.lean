import Multidomain.Proofs.Topology.Parallels

/-!
# The devices of a topology and of its overview

A device that connects stays, in the topology and in the overview that listens to it, so the two know
the same devices, and as long as no device is told of they know what they knew. Every link was taken up
because a device at one of its ends was known, and that device is known ever after.
-/

namespace Multidomain

/-- The device that an event adds. -/
def Event.device? : Event → Option Device
  | .deviceAdded d => some d
  | _ => none

namespace Topology

variable {t t' : Topology} {events : List Event}

/-- What an operation does to the devices, and what it tells of them. -/
inductive DeviceEffect (t : Topology) : Topology → List Event → Prop where
  | none {t' : Topology} {events : List Event} (hdevices : t'.devices = t.devices)
      (hquiet : ∀ e ∈ events, e.device? = .none) : DeviceEffect t t' events
  | added {t' : Topology} (d : Device) (hdevices : t'.devices = t.devices.put d) :
      DeviceEffect t t' [.deviceAdded d]

theorem deviceEffect_act (t : Topology) (op : StoreOp) :
    DeviceEffect t (t.act op).1 (t.act op).2 := by
  cases op with
  | connect device =>
    simp only [act, connectDevice]
    split
    · exact .none rfl (List.forall_mem_nil _)
    · exact .added device rfl
  | detect link =>
    simp only [act, detectLink]
    split
    · exact .none rfl (List.forall_mem_nil _)
    · split
      · exact .none rfl (List.forall_mem_nil _)
      · exact .none rfl (by simp [Event.device?])
  | lose ends =>
    simp only [act, loseLink]
    split
    · exact .none rfl (by simp [Event.device?])
    · exact .none rfl (List.forall_mem_nil _)
  | attach host =>
    simp only [act, detectHost]
    split
    · refine .none rfl ?_
      split
      · simp [Event.device?]
      · split <;> simp [Event.device?]
    · exact .none rfl (List.forall_mem_nil _)
  | install rules => exact .none rfl (List.forall_mem_nil _)

/-- What is known stays known. -/
theorem DeviceEffect.knows (h : t.DeviceEffect t' events) {device : DeviceId}
    (hknows : t.knows device = true) : t'.knows device = true := by
  cases h with
  | none hdevices => rwa [Topology.knows, hdevices]
  | added d hdevices =>
    rw [Topology.knows, hdevices, Roster.contains, Roster.find?_put]
    split
    · rfl
    · exact hknows

theorem DeviceEffect.mem_devices (h : t.DeviceEffect t' events) {d : Device}
    (hd : d ∈ t'.devices.items) : d ∈ t.devices.items ∨ .deviceAdded d ∈ events := by
  cases h with
  | none hdevices => exact .inl (hdevices ▸ hd)
  | added k hdevices =>
    obtain rfl | ⟨hold, -⟩ := Roster.mem_put.1 (hdevices ▸ hd)
    · exact .inr List.mem_cons_self
    · exact .inl hold

theorem DeviceEffect.devices_of_quiet (h : t.DeviceEffect t' events)
    (hquiet : ∀ e ∈ events, e.device? = .none) : t'.devices = t.devices := by
  cases h with
  | none hdevices => exact hdevices
  | added d => exact nomatch hquiet _ List.mem_cons_self

/-- The overview takes up the devices that the topology tells it of. -/
theorem DeviceEffect.observe (h : t.DeviceEffect t' events) {o : Overview}
    (hsame : o.devices = t.devices) : (o.observeAll events).devices = t'.devices := by
  cases h with
  | none hdevices hquiet =>
    have hkept : ∀ (events : List Event) (o : Overview), (∀ e ∈ events, e.device? = .none) →
        (o.observeAll events).devices = o.devices := by
      intro events
      induction events with
      | nil => exact fun o _ => rfl
      | cons e rest ih =>
        intro o hquiet
        rw [List.forall_mem_cons] at hquiet
        obtain ⟨he, hrest⟩ := hquiet
        refine (ih (o.observe e) hrest).trans ?_
        cases e with
        | deviceAdded d => cases he
        | linkAdded l =>
          change (o.putLink l).devices = o.devices
          unfold Overview.putLink
          split <;> rfl
        | linkRemoved l =>
          change (o.removeLink l).devices = o.devices
          unfold Overview.removeLink
          split <;> rfl
        | hostAdded | hostMoved => rfl
    rw [hkept events o hquiet, hsame, hdevices]
  | added d hdevices =>
    rw [hdevices, ← hsame]
    rfl

/-- A device at one of the ends is known. -/
def KnowsEnd (t : Topology) (e : Ends) : Prop :=
  t.knows e.src.device = true ∨ t.knows e.dst.device = true

theorem KnowsEnd.mono {e : Ends} (h : t.KnowsEnd e)
    (hknows : ∀ device, t.knows device = true → t'.knows device = true) : t'.KnowsEnd e :=
  h.imp (hknows _) (hknows _)

/-- A link that is told of as added has a known end. -/
theorem knowsEnd_of_told {op : StoreOp} {l : Link} (h : .linkAdded l ∈ (t.act op).2) :
    t.KnowsEnd l.ends := by
  cases op with
  | detect link =>
    simp only [act, detectLink] at h
    split at h
    · cases h
    · next hknown =>
      split at h
      · cases h
      · obtain rfl : l = link := by simpa using h
        rw [KnowsEnd]
        by_contra hnone
        rw [not_or, Bool.not_eq_true, Bool.not_eq_true] at hnone
        exact hknown (by simp [Link.src, Link.dst, hnone.1, hnone.2])
  | connect device =>
    simp only [act, connectDevice] at h
    split at h <;> simp at h
  | lose ends =>
    simp only [act, loseLink] at h
    split at h <;> simp at h
  | attach host =>
    simp only [act, detectHost] at h
    split at h
    · split at h
      · simp at h
      · split at h <;> simp at h
    · simp at h
  | install rules => cases h

end Topology

namespace Watch

variable {w : Watch}

theorem devices_run (steps : List WatchStep) :
    (run {} steps).overview.devices = (run {} steps).topology.devices := by
  induction steps using List.reverseRecOn with
  | nil => rfl
  | append_singleton steps s ih =>
    rw [run_concat]
    cases s with
    | act op => exact (Topology.deviceEffect_act _ op).observe ih
    | look l =>
      change ((run {} steps).overview.look l).devices = _
      rw [Overview.look_eq]
      exact ih

theorem mem_told_of_mem_devices {steps : List WatchStep} {d : Device}
    (h : d ∈ (w.run steps).topology.devices.items) :
    d ∈ w.topology.devices.items ∨ .deviceAdded d ∈ w.told steps :=
  mem_told_of_mem (·.devices.items) .deviceAdded
    (fun t op _ => (Topology.deviceEffect_act t op).mem_devices) h

/-- As long as no device is told of, the devices are the same. -/
theorem devices_run_of_quiet {steps : List WatchStep}
    (hquiet : ∀ e ∈ w.told steps, e.device? = none) :
    (w.run steps).topology.devices = w.topology.devices := by
  induction steps using List.reverseRecOn with
  | nil => rfl
  | append_singleton steps s ih =>
    rw [told_concat, List.forall_mem_append] at hquiet
    obtain ⟨hearlier, hlast⟩ := hquiet
    rw [run_concat, ← ih hearlier]
    cases s with
    | look l => rfl
    | act op => exact (Topology.deviceEffect_act _ op).devices_of_quiet hlast

/-- Every link of the topology has a known end. -/
theorem knowsEnd_run (steps : List WatchStep) :
    ∀ l ∈ (run {} steps).topology.links.items, (run {} steps).topology.KnowsEnd l.ends := by
  induction steps using List.reverseRecOn with
  | nil => exact fun l hl => nomatch hl
  | append_singleton steps s ih =>
    rw [run_concat]
    cases s with
    | look l => exact ih
    | act op =>
      intro l hl
      have hkept : ∀ {e : Ends}, (run {} steps).topology.KnowsEnd e →
          ((run {} steps).topology.act op).1.KnowsEnd e :=
        fun he => he.mono fun _ => (Topology.deviceEffect_act _ op).knows
      obtain hold | hnew := (Topology.linkEffect_act (run {} steps).topology op).mem_links hl
      · exact hkept (ih l hold)
      · exact hkept (Topology.knowsEnd_of_told hnew)

end Watch

end Multidomain
