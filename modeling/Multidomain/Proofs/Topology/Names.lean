import Multidomain.Proofs.Topology.Attachment
import Multidomain.Topology.Overview

/-!
# Which devices are named

A topology makes up no device ids: those in it, and those in the events that tell of it, come from the
notices that it was given. An overview in turn has its ids from events. So whatever holds of all ids
in the notices, such as the scheme they carry or that they are well formed, holds of all ids in the
topology and in every view of it.
-/

namespace Multidomain

variable {P : DeviceId → Prop}

/-- The ends of a link are on devices of a kind. -/
def Ends.Names (P : DeviceId → Prop) (e : Ends) : Prop := P e.src.device ∧ P e.dst.device

theorem Ends.Names.inverted {e : Ends} (h : e.Names P) : e.inverted.Names P := ⟨h.2, h.1⟩

/-- All devices that the notice names are of a kind. -/
def Notice.Names (P : DeviceId → Prop) : Notice → Prop
  | device d => P d.id
  | link e => e.Names P
  | unlink e => e.Names P
  | host h => P h.location.device

/-- All devices that the event names are of a kind. -/
def Event.Names (P : DeviceId → Prop) : Event → Prop
  | deviceAdded d => P d.id
  | linkAdded l => l.ends.Names P
  | linkRemoved l => l.ends.Names P
  | hostAdded h => P h.location.device
  | hostMoved h previous => P h.location.device ∧ P previous.device

theorem Notice.Names.attachedAt {notice : Notice} (h : notice.Names P) :
    notice.AttachedAt fun p => P p.device := by
  cases notice with
  | device | unlink => exact trivial
  | link | host => exact h

namespace Topology

/-- All devices in the topology, and those that its links and hosts are attached to, are of a kind. -/
structure Names (P : DeviceId → Prop) (t : Topology) : Prop where
  device : ∀ d ∈ t.devices.items, P d.id
  attached : t.AttachedAt fun p => P p.device

variable {t : Topology}

theorem names_empty : empty.Names P where
  device _ hd := nomatch hd
  attached := attachedAt_empty

theorem Names.of_knows (h : t.Names P) {device : DeviceId} (hknown : t.knows device = true) :
    P device := by
  obtain ⟨d, hfind⟩ := Option.isSome_iff_exists.1 hknown
  rw [← Roster.key_of_find? hfind]
  exact h.device d (Roster.mem_of_find? hfind)

theorem mem_devices_heed {notice : Notice} {d : Device} (h : d ∈ (t.heed notice).1.devices.items) :
    d ∈ t.devices.items ∨ notice = .device d := by
  cases notice with
  | device d' =>
    rw [heed, connectDevice] at h
    split at h
    · exact .inl h
    · obtain rfl | ⟨hold, -⟩ := Roster.mem_put.1 h
      · exact .inr rfl
      · exact .inl hold
  | link e =>
    rw [heed, detectLink] at h
    split at h
    · exact .inl h
    · split at h <;> exact .inl h
  | unlink e =>
    rw [heed, loseLink] at h
    split at h <;> exact .inl h
  | host host =>
    rw [heed, detectHost] at h
    split at h <;> exact .inl h

theorem Names.heed (h : t.Names P) {notice : Notice} (hnotice : notice.Names P) :
    (t.heed notice).1.Names P where
  device d hd := by
    obtain hold | rfl := mem_devices_heed hd
    · exact h.device d hold
    · exact hnotice
  attached := h.attached.heed hnotice.attachedAt

/-- What is told of a notice names devices of the notice, and such as were there before. -/
theorem Names.event_heed (h : t.Names P) {notice : Notice} (hnotice : notice.Names P) :
    ∀ e ∈ (t.heed notice).2, e.Names P := by
  cases notice with
  | device d =>
    rw [Topology.heed, connectDevice]
    split
    · simp
    · exact List.forall_mem_singleton.2 hnotice
  | link e =>
    rw [Topology.heed, detectLink]
    split
    · simp
    · split
      · simp
      · exact List.forall_mem_singleton.2 hnotice
  | unlink e =>
    rw [Topology.heed, loseLink]
    split
    · next l hfind =>
      have hends : l.ends.Names P := h.attached.link l (Roster.mem_of_find? hfind)
      exact List.forall_mem_singleton.2 hends
    · simp
  | host host =>
    rw [Topology.heed, detectHost]
    split
    · split
      · exact List.forall_mem_singleton.2 hnotice
      · next previous hfind =>
        split
        · simp
        · have hprevious := h.attached.host previous (Roster.mem_of_find? hfind)
          exact List.forall_mem_singleton.2 ⟨hnotice, hprevious⟩
    · simp

theorem Names.heedAll (h : t.Names P) {notices : List Notice}
    (hnotices : ∀ notice ∈ notices, notice.Names P) :
    (t.heedAll notices).1.Names P ∧ ∀ e ∈ (t.heedAll notices).2.1, e.Names P := by
  induction notices generalizing t with
  | nil => exact ⟨h, by simp [Topology.heedAll]⟩
  | cons notice rest ih =>
    rw [List.forall_mem_cons] at hnotices
    obtain ⟨hnotice, hrest⟩ := hnotices
    rw [Topology.heedAll]
    cases notice.refusal? with
    | some refusal => exact ⟨h, by simp⟩
    | none =>
      obtain ⟨hnames, hlater⟩ := ih (h.heed hnotice) hrest
      refine ⟨hnames, fun e he => ?_⟩
      obtain hnow | he := List.mem_append.1 he
      · exact h.event_heed hnotice e hnow
      · exact hlater e he

end Topology

/-! ### The overview -/

namespace ChangeLog

/-- All links that came or went are between devices of a kind. -/
structure Names (P : DeviceId → Prop) (c : ChangeLog) : Prop where
  added : ∀ l ∈ c.added.items, l.ends.Names P
  deleted : ∀ l ∈ c.deleted.items, l.ends.Names P

variable {c : ChangeLog} {l : Link}

theorem names_empty : empty.Names P where
  added _ hl := nomatch hl
  deleted _ hl := nomatch hl

theorem Names.put (h : c.Names P) (hl : l.ends.Names P) : (c.put l).Names P := by
  unfold ChangeLog.put
  split
  · exact ⟨h.added, fun k hk => h.deleted k (Roster.mem_erase.1 hk).1⟩
  · refine ⟨fun k hk => ?_, h.deleted⟩
    obtain rfl | ⟨hold, -⟩ := Roster.mem_put.1 hk
    · exact hl
    · exact h.added k hold

theorem Names.remove (h : c.Names P) (hl : l.ends.Names P) : (c.remove l).Names P := by
  unfold ChangeLog.remove
  split
  · exact ⟨fun k hk => h.added k (Roster.mem_erase.1 hk).1, h.deleted⟩
  · refine ⟨h.added, fun k hk => ?_⟩
    obtain rfl | ⟨hold, -⟩ := Roster.mem_put.1 hk
    · exact hl
    · exact h.deleted k hold

end ChangeLog

namespace Overview

/-- All devices that the overview names are of a kind. -/
structure Names (P : DeviceId → Prop) (o : Overview) : Prop where
  device : ∀ d ∈ o.devices.items, P d.id
  link : ∀ l ∈ o.links.items, l.ends.Names P
  interlink : ∀ l ∈ o.interlinks.items, l.ends.Names P
  host : ∀ h ∈ o.hosts.items, P h.location.device
  change : o.changes.Names P
  interchange : o.interchanges.Names P

variable {o : Overview}

theorem names_empty : empty.Names P where
  device _ hd := nomatch hd
  link _ hl := nomatch hl
  interlink _ hl := nomatch hl
  host _ hh := nomatch hh
  change := ChangeLog.names_empty
  interchange := ChangeLog.names_empty

theorem Names.clearChanges (h : o.Names P) : o.clearChanges.Names P :=
  { h with change := ChangeLog.names_empty, interchange := ChangeLog.names_empty }

theorem Names.putLink {l : Link} (h : o.Names P) (hl : l.ends.Names P) : (o.putLink l).Names P := by
  have hput : ∀ {r : Roster Link.heading}, (∀ k ∈ r.items, k.ends.Names P) →
      ∀ k ∈ (r.put l).items, k.ends.Names P := by
    intro r hr k hk
    obtain rfl | ⟨hold, -⟩ := Roster.mem_put.1 hk
    · exact hl
    · exact hr k hold
  unfold Overview.putLink
  split
  · exact { h with
      link := hput h.link, interlink := hput h.interlink
      change := h.change.put hl, interchange := h.interchange.put hl }
  · exact { h with link := hput h.link, change := h.change.put hl }

theorem Names.removeLink {l : Link} (h : o.Names P) (hl : l.ends.Names P) :
    (o.removeLink l).Names P := by
  have herase : ∀ {r : Roster Link.heading}, (∀ k ∈ r.items, k.ends.Names P) →
      ∀ k ∈ (r.erase l.heading).items, k.ends.Names P :=
    fun hr k hk => hr k (Roster.mem_erase.1 hk).1
  unfold Overview.removeLink
  split
  · exact { h with
      link := herase h.link, interlink := herase h.interlink
      change := h.change.remove hl, interchange := h.interchange.remove hl }
  · exact { h with link := herase h.link, change := h.change.remove hl }

theorem Names.putHost {host : Host} (h : o.Names P) (hhost : P host.location.device) :
    { o with hosts := o.hosts.put host }.Names P := by
  refine { h with host := fun k hk => ?_ }
  obtain rfl | ⟨hold, -⟩ := Roster.mem_put.1 hk
  · exact hhost
  · exact h.host k hold

theorem Names.observe (h : o.Names P) {e : Event} (he : e.Names P) : (o.observe e).Names P := by
  cases e with
  | deviceAdded d =>
    refine { h with device := fun k hk => ?_ }
    obtain rfl | ⟨hold, -⟩ := Roster.mem_put.1 hk
    · exact he
    · exact h.device k hold
  | linkAdded l => exact h.putLink he
  | linkRemoved l => exact h.removeLink he
  | hostAdded host => exact h.putHost he
  | hostMoved host previous => exact h.putHost he.1

theorem Names.observeAll (h : o.Names P) {events : List Event}
    (hevents : ∀ e ∈ events, e.Names P) : (o.observeAll events).Names P := by
  induction events generalizing o with
  | nil => exact h
  | cons e rest ih =>
    rw [List.forall_mem_cons] at hevents
    exact ih (h.observe hevents.1) hevents.2

theorem Names.linksOf (h : o.Names P) (view : LinkView) :
    ∀ l ∈ o.linksOf view, l.ends.Names P := by
  cases view with
  | explicit | summary => exact h.link
  | implicit => exact h.interlink

theorem Names.changesOf (h : o.Names P) (view : LinkView) : (o.changesOf view).Names P := by
  cases view with
  | explicit | summary => exact h.change
  | implicit => exact h.interchange

end Overview

end Multidomain
