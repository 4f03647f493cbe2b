import Multidomain.Orchestration.Notice
import Multidomain.Proofs.Roster
import Multidomain.Topology.Seed

/-!
# Where links and hosts are attached

The links and hosts of a topology come from what it was told, and nothing moves them. So if every link
and host that a topology is told of is attached at connect points of some kind, then so is every link
and host in it, whatever else happens to it.
-/

namespace Multidomain

namespace Topology

/-- Links start and end, and hosts are attached, at connect points of a kind. -/
structure AttachedAt (P : ConnectPoint → Prop) (t : Topology) : Prop where
  link : ∀ l ∈ t.links.items, P l.src ∧ P l.dst
  host : ∀ h ∈ t.hosts.items, P h.location

variable {P : ConnectPoint → Prop} {t : Topology}

theorem attachedAt_empty : empty.AttachedAt P where
  link l hl := by cases hl
  host h hh := by cases hh

namespace AttachedAt

theorem mono {Q : ConnectPoint → Prop} (h : t.AttachedAt P) (hPQ : ∀ p, P p → Q p) :
    t.AttachedAt Q where
  link l hl := (h.link l hl).imp (hPQ _) (hPQ _)
  host host hhost := hPQ _ (h.host host hhost)

theorem connectDevice (h : t.AttachedAt P) (d : Device) : (t.connectDevice d).1.AttachedAt P := by
  unfold Topology.connectDevice
  split
  · exact h
  · exact ⟨h.link, h.host⟩

theorem detectLink (h : t.AttachedAt P) {l : Link} (hl : P l.src ∧ P l.dst) :
    (t.detectLink l).1.AttachedAt P := by
  unfold Topology.detectLink
  split
  · exact h
  · split
    · exact h
    · refine ⟨fun k hk => ?_, h.host⟩
      obtain rfl | ⟨hold, -⟩ := Roster.mem_put.1 hk
      · exact hl
      · exact h.link k hold

theorem loseLink (h : t.AttachedAt P) (ends : Ends) : (t.loseLink ends).1.AttachedAt P := by
  unfold Topology.loseLink
  split
  · exact ⟨fun k hk => h.link k (Roster.mem_erase.1 hk).1, h.host⟩
  · exact h

theorem detectHost (h : t.AttachedAt P) {host : Host} (hhost : P host.location) :
    (t.detectHost host).1.AttachedAt P := by
  unfold Topology.detectHost
  split
  · refine ⟨h.link, fun k hk => ?_⟩
    obtain rfl | ⟨hold, -⟩ := Roster.mem_put.1 hk
    · exact hhost
    · exact h.host k hold
  · exact h

end AttachedAt

end Topology

/-- The link or host that a notice brings is attached at connect points of a kind. -/
def Notice.AttachedAt (P : ConnectPoint → Prop) : Notice → Prop
  | .device _ => True
  | .link ends => P ends.src ∧ P ends.dst
  | .unlink _ => True
  | .host h => P h.location

namespace Topology.AttachedAt

variable {P : ConnectPoint → Prop} {t : Topology}

theorem heed (h : t.AttachedAt P) {notice : Notice} (hnotice : notice.AttachedAt P) :
    (t.heed notice).1.AttachedAt P := by
  cases notice with
  | device d => exact h.connectDevice d
  | link ends => exact h.detectLink (l := .direct ends) hnotice
  | unlink ends => exact h.loseLink ends
  | host host => exact h.detectHost hnotice

theorem heedAll (h : t.AttachedAt P) {notices : List Notice}
    (hnotices : ∀ notice ∈ notices, notice.AttachedAt P) : (t.heedAll notices).1.AttachedAt P := by
  induction notices generalizing t with
  | nil => exact h
  | cons notice rest ih =>
    rw [List.forall_mem_cons] at hnotices
    obtain ⟨hnotice, hrest⟩ := hnotices
    rw [Topology.heedAll]
    cases notice.refusal? with
    | some refusal => exact h
    | none => exact ih (h.heed hnotice) hrest

end Topology.AttachedAt

namespace Seed

/-- The links and hosts that a seed document hands over are attached at connect points of a kind. -/
structure AttachedAt (P : ConnectPoint → Prop) (s : Seed) : Prop where
  link : ∀ value ∈ s.links, ∀ l ∈ LinkEntry.read? value, P l.ends.src ∧ P l.ends.dst
  host : ∀ value ∈ s.hosts, ∀ h ∈ host? value, P h.location

/-- What is kept by planting each element that can be read is kept by planting all. -/
theorem plantAll_keeps {α : Type} {Q : Topology → Prop} {read : Json → Option α}
    {plant : Topology → α → Topology × List Event} {values : List Json} {t : Topology} (ht : Q t)
    (hplant : ∀ value ∈ values, ∀ element ∈ read value, ∀ t, Q t → Q (plant t element).1) :
    Q (plantAll read plant values t).1 := by
  induction values generalizing t with
  | nil => exact ht
  | cons value rest ih =>
    rw [List.forall_mem_cons] at hplant
    obtain ⟨hvalue, hrest⟩ := hplant
    rw [plantAll]
    cases hread : read value with
    | none => exact ih ht hrest
    | some element => exact ih (hvalue element hread t ht) hrest

theorem AttachedAt.mono {P Q : ConnectPoint → Prop} {s : Seed} (h : s.AttachedAt P)
    (hPQ : ∀ p, P p → Q p) : s.AttachedAt Q where
  link value hvalue l hl := (h.link value hvalue l hl).imp (hPQ _) (hPQ _)
  host value hvalue host hhost := hPQ _ (h.host value hvalue host hhost)

theorem AttachedAt.plant {P : ConnectPoint → Prop} {s : Seed} {t : Topology} (h : s.AttachedAt P)
    (ht : t.AttachedAt P) : (s.plant t).1.AttachedAt P := by
  have hdevices : (plantAll DeviceEntry.read? plantDevice s.devices t).1.AttachedAt P :=
    plantAll_keeps ht fun _ _ d _ t ht => ht.connectDevice d.toDevice
  have hlinks : (plantAll LinkEntry.read? plantLink s.links
      (plantAll DeviceEntry.read? plantDevice s.devices t).1).1.AttachedAt P := by
    apply plantAll_keeps hdevices
    intro value hvalue l hl t ht
    obtain ⟨hsrc, hdst⟩ := h.link value hvalue l hl
    have hback : (t.detectLink (Link.direct l.ends).reversed).1.AttachedAt P :=
      ht.detectLink ⟨hdst, hsrc⟩
    exact hback.detectLink ⟨hsrc, hdst⟩
  exact plantAll_keeps hlinks fun value hvalue host hhost t ht =>
    ht.detectHost (h.host value hvalue host hhost)

/-- The links and hosts that a seed document hands over are on devices under none of the orchestrator's
own schemes. -/
def Native (s : Seed) : Prop := s.AttachedAt fun p => p.device.orchestratedScheme? = none

end Seed

end Multidomain
