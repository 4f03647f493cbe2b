import Multidomain.Proofs.Orchestration.ExplicitLinks

/-!
# Children that can be followed

What a child must keep to so that its parent can tell its links apart: its devices do not change once
they have been read, every id that it ever shows can be requalified without running into another, and
the links of one heading are always between the same ports. Then there are never two links of one
heading at once, so what the child shows is what it has.
-/

namespace Multidomain

/-- The ids that an event brings up: of the device that is added, or of the ends of the link. -/
def Event.ids : Event → List DeviceId
  | .deviceAdded d => [d.id]
  | .linkAdded l => [l.src.device, l.dst.device]
  | _ => []

def Event.link? : Event → Option Link
  | .linkAdded l => some l
  | _ => none

namespace Watch

/-- The ids of the devices and of the ends of links that a node has ever had. -/
def idsOver (steps : List WatchStep) : List DeviceId := (told {} steps).flatMap Event.ids

/-- The links that a node has ever had. -/
def linksOver (steps : List WatchStep) : List Link := (told {} steps).filterMap Event.link?

theorem run_append (w : Watch) (first second : List WatchStep) :
    w.run (first ++ second) = (w.run first).run second := List.foldl_append

theorem idsOver_subset {done steps : List WatchStep} (h : done <+: steps) :
    idsOver done ⊆ idsOver steps := by
  obtain ⟨rest, rfl⟩ := h
  rw [idsOver, idsOver, told_append, List.flatMap_append]
  exact List.subset_append_left _ _

theorem linksOver_subset {done steps : List WatchStep} (h : done <+: steps) :
    linksOver done ⊆ linksOver steps := by
  obtain ⟨rest, rfl⟩ := h
  rw [linksOver, linksOver, told_append, List.filterMap_append]
  exact List.subset_append_left _ _

theorem mem_linksOver {steps : List WatchStep} {l : Link} :
    l ∈ linksOver steps ↔ .linkAdded l ∈ told {} steps := by
  rw [linksOver, List.mem_filterMap]
  constructor
  · rintro ⟨e, he, hl⟩
    cases e with
    | linkAdded k => exact Option.some.inj hl ▸ he
    | deviceAdded | linkRemoved | hostAdded | hostMoved => cases hl
  · exact fun h => ⟨_, h, rfl⟩

theorem mem_linksOver_of_mem_links {steps : List WatchStep} {l : Link}
    (h : l ∈ (run {} steps).topology.links.items) : l ∈ linksOver steps :=
  mem_linksOver.2 ((mem_told_of_mem_links h).resolve_left fun hbefore => nomatch hbefore)

theorem device_mem_idsOver {steps : List WatchStep} {l : Link} (h : l ∈ linksOver steps) :
    l.src.device ∈ idsOver steps ∧ l.dst.device ∈ idsOver steps := by
  have htold := mem_linksOver.1 h
  exact ⟨List.mem_flatMap.2 ⟨_, htold, by simp [Event.ids]⟩,
    List.mem_flatMap.2 ⟨_, htold, by simp [Event.ids]⟩⟩

theorem mem_idsOver_of_mem_devices {steps : List WatchStep} {d : Device}
    (h : d ∈ (run {} steps).topology.devices.items) : d.id ∈ idsOver steps := by
  have htold := (mem_told_of_mem_devices h).resolve_left fun hbefore => nomatch hbefore
  exact List.mem_flatMap.2 ⟨_, htold, by simp [Event.ids]⟩

/-- A child whose devices are those of its history, whose ids all have the form `scheme:part` with a
part of their own, and whose links of one heading are always between the same ports. -/
structure Steady (history later : List WatchStep) : Prop where
  fixed : ∀ e ∈ (run {} history).told later, e.device? = none
  wellFormed : ∀ id ∈ idsOver (history ++ later), id.WellFormed
  apart : ∀ a ∈ idsOver (history ++ later), ∀ b ∈ idsOver (history ++ later),
    a.localPart = b.localPart → a = b
  ports : ∀ k ∈ linksOver (history ++ later), ∀ l ∈ linksOver (history ++ later),
    k.heading = l.heading → k.ends = l.ends

namespace Steady

variable {history later : List WatchStep}

theorem take {more : List WatchStep} (h : Steady history (later ++ more)) :
    Steady history later := by
  have hdone : history ++ later <+: history ++ (later ++ more) :=
    (List.prefix_append_right_inj history).2 (List.prefix_append later more)
  have hids := idsOver_subset hdone
  have hlinks := linksOver_subset hdone
  refine ⟨fun e he => h.fixed e ?_, fun id hid => h.wellFormed id (hids hid),
    fun a ha b hb => h.apart a (hids ha) b (hids hb),
    fun k hk l hl => h.ports k (hlinks hk) l (hlinks hl)⟩
  rw [told_append]
  exact List.mem_append_left _ he

variable (h : Steady history later)
include h

theorem noParallels {done : List WatchStep} (hdone : done <+: history ++ later) :
    (run {} done).topology.NoParallels := by
  intro k hk l hl hheading
  have hends : k.ends = l.ends :=
    h.ports k (linksOver_subset hdone (mem_linksOver_of_mem_links hk)) l
      (linksOver_subset hdone (mem_linksOver_of_mem_links hl)) hheading
  exact Roster.eq_of_key_eq hk hl hends

theorem faithful : (run {} (history ++ later)).Faithful :=
  faithful_run _ fun _ hdone => h.noParallels hdone

theorem devices : (run {} (history ++ later)).topology.devices = (run {} history).topology.devices := by
  rw [run_append]
  exact devices_run_of_quiet h.fixed

theorem ends_wellFormed {l : Link} (hl : l ∈ linksOver (history ++ later)) : l.ends.WellFormed :=
  ⟨h.wellFormed _ (device_mem_idsOver hl).1, h.wellFormed _ (device_mem_idsOver hl).2⟩

/-- Ends that are different are still so under the orchestrator's scheme. -/
theorem ends_eq_of_requalified {k l : Link} (hk : k ∈ linksOver (history ++ later))
    (hl : l ∈ linksOver (history ++ later)) (heq : k.ends.requalified = l.ends.requalified) :
    k.ends = l.ends := by
  have hsrc : k.ends.src.device = l.ends.src.device :=
    h.apart _ (device_mem_idsOver hk).1 _ (device_mem_idsOver hl).1
      (DeviceId.localPart_eq_of_requalified_eq (congrArg (·.src.device) heq))
  have hdst : k.ends.dst.device = l.ends.dst.device :=
    h.apart _ (device_mem_idsOver hk).2 _ (device_mem_idsOver hl).2
      (DeviceId.localPart_eq_of_requalified_eq (congrArg (·.dst.device) heq))
  have hports : k.ends.src.port = l.ends.src.port ∧ k.ends.dst.port = l.ends.dst.port :=
    ⟨congrArg (·.src.port) heq, congrArg (·.dst.port) heq⟩
  rw [Ends.mk.injEq, ConnectPoint.mk.injEq, ConnectPoint.mk.injEq]
  exact ⟨⟨hsrc, hports.1⟩, hdst, hports.2⟩

end Steady

end Watch

end Multidomain
