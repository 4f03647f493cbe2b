import Multidomain.Proofs.Topology.Replay

/-!
# What an overview makes of parallel links

A topology may hold several links of one heading. Its overview shows the last of them that was added,
until any of them is removed: `find?_links_run` reads this off the events. So a heading can have a link
that the overview does not show, and `heading_shown_iff` says exactly when. The other way round nothing
goes wrong. What the overview shows, or has logged as added, is in the topology, since the removal of
any link takes back whatever is kept under its heading. `Backed` is the invariant.
-/

namespace Multidomain

/-- The heading of the link that an event is about. -/
def Event.heading? : Event → Option Heading
  | .linkAdded l | .linkRemoved l => some l.heading
  | _ => none

/-- The last event about a link of a heading. -/
def lastTold? (heading : Heading) (events : List Event) : Option Event :=
  events.reverse.find? fun e => e.heading? = some heading

theorem lastTold?_concat (heading : Heading) (events : List Event) (e : Event) :
    lastTold? heading (events ++ [e])
      = if e.heading? = some heading then some e else lastTold? heading events := by
  unfold lastTold?
  rw [List.reverse_append, List.reverse_singleton, List.singleton_append, List.find?_cons]
  by_cases h : e.heading? = some heading <;> simp [h]

theorem exists_lastTold? {heading : Heading} {events : List Event} {e : Event} (he : e ∈ events)
    (hheading : e.heading? = some heading) :
    ∃ last, lastTold? heading events = some last ∧ last.heading? = some heading := by
  have hsome : (lastTold? heading events).isSome := by
    rw [lastTold?, List.find?_isSome]
    exact ⟨e, List.mem_reverse.2 he, by simpa using hheading⟩
  obtain ⟨last, hlast⟩ := Option.isSome_iff_exists.1 hsome
  exact ⟨last, hlast, by simpa using List.find?_some hlast⟩

namespace Overview

theorem find?_links_observe (o : Overview) (e : Event) (heading : Heading) :
    (o.observe e).links.find? heading =
      if e.heading? = some heading then
        match e with
        | .linkAdded l => some l
        | _ => none
      else o.links.find? heading := by
  cases e with
  | linkAdded l =>
    change (o.putLink l).links.find? heading = _
    rw [links_putLink, Roster.find?_put]
    simp [Event.heading?]
  | linkRemoved l =>
    change (o.removeLink l).links.find? heading = _
    rw [links_removeLink, Roster.find?_erase]
    simp [Event.heading?, eq_comm]
  | deviceAdded | hostAdded | hostMoved => rfl

/-- If the link shown for a heading is the one told of last, it is so after more events. -/
theorem find?_links_observeAll {o : Overview} {heading : Heading} {history : List Event}
    (h : ∀ l, o.links.find? heading = some l ↔ lastTold? heading history = some (.linkAdded l))
    (events : List Event) (l : Link) :
    (o.observeAll events).links.find? heading = some l
      ↔ lastTold? heading (history ++ events) = some (.linkAdded l) := by
  induction events generalizing o history with
  | nil => rw [List.append_nil]; exact h l
  | cons e rest ih =>
    rw [List.append_cons]
    refine ih (o := o.observe e) fun k => ?_
    rw [find?_links_observe, lastTold?_concat]
    split
    · cases e <;> simp
    · exact h k

end Overview

/-- A link is new to a topology only where its addition is told. -/
theorem Topology.LinkEffect.mem_links {t t' : Topology} {events : List Event} {l : Link}
    (heffect : t.LinkEffect t' events) (h : l ∈ t'.links.items) :
    l ∈ t.links.items ∨ .linkAdded l ∈ events := by
  cases heffect with
  | none hlinks => exact .inl (hlinks ▸ h)
  | added k hnew hlinks =>
    obtain rfl | ⟨hold, -⟩ := Roster.mem_put.1 (hlinks ▸ h)
    · exact .inr List.mem_cons_self
    · exact .inl hold
  | removed k hheld hlinks => exact .inl (Roster.mem_erase.1 (hlinks ▸ h)).1

namespace Watch

/-- The events that a step makes the topology tell. -/
def toldBy (w : Watch) : WatchStep → List Event
  | .act op => (w.topology.act op).2
  | .look _ => []

/-- The events that the topology tells while steps are taken. -/
def told (w : Watch) : List WatchStep → List Event
  | [] => []
  | s :: rest => w.toldBy s ++ told (w.step s) rest

theorem told_append (w : Watch) (first second : List WatchStep) :
    w.told (first ++ second) = w.told first ++ (w.run first).told second := by
  induction first generalizing w with
  | nil => rfl
  | cons s rest ih =>
    simp only [List.cons_append, told, ih (w.step s), List.append_assoc]
    rfl

theorem told_concat (w : Watch) (steps : List WatchStep) (s : WatchStep) :
    w.told (steps ++ [s]) = w.told steps ++ (w.run steps).toldBy s := by
  rw [told_append]
  simp [told]

theorem find?_links_run (steps : List WatchStep) (heading : Heading) (l : Link) :
    (run {} steps).overview.links.find? heading = some l
      ↔ lastTold? heading (told {} steps) = some (.linkAdded l) := by
  induction steps using List.reverseRecOn generalizing l with
  | nil =>
    change (Roster.empty.find? heading = some l) ↔ (none = some (Event.linkAdded l))
    simp
  | append_singleton steps s ih =>
    rw [run_concat, told_concat]
    cases s with
    | act op => exact Overview.find?_links_observeAll ih _ l
    | look look =>
      change ((run {} steps).overview.look look).links.find? heading = some l ↔ _
      rw [Overview.look_eq, toldBy, List.append_nil]
      exact ih l

/-- What can come into a topology only by being told of has been told of, if a run leaves it there. -/
theorem mem_told_of_mem {α : Type} (held : Topology → List α) (event : α → Event)
    (hstep : ∀ t op a, a ∈ held (Topology.act t op).1 → a ∈ held t ∨ event a ∈ (t.act op).2)
    {w : Watch} {steps : List WatchStep} {a : α} (h : a ∈ held (w.run steps).topology) :
    a ∈ held w.topology ∨ event a ∈ w.told steps := by
  induction steps using List.reverseRecOn with
  | nil => exact .inl h
  | append_singleton steps s ih =>
    rw [run_concat] at h
    rw [told_concat, List.mem_append]
    have hlast : a ∈ held (w.run steps).topology ∨ event a ∈ (w.run steps).toldBy s := by
      cases s with
      | act op => exact hstep _ op a h
      | look look => exact .inl h
    obtain hbefore | hnow := hlast
    · exact (ih hbefore).imp_right .inl
    · exact .inr (.inr hnow)

theorem mem_told_of_mem_links {w : Watch} {steps : List WatchStep} {l : Link}
    (h : l ∈ (w.run steps).topology.links.items) :
    l ∈ w.topology.links.items ∨ .linkAdded l ∈ w.told steps :=
  mem_told_of_mem (·.links.items) .linkAdded
    (fun t op _ => (Topology.linkEffect_act t op).mem_links) h

end Watch

namespace ChangeLog

variable {c : ChangeLog} {l k : Link}

theorem mem_added_put (h : k ∈ (c.put l).added.items) : k = l ∨ k ∈ c.added.items := by
  unfold put at h
  split at h
  · exact .inr h
  · exact (Roster.mem_put.1 h).imp_right And.left

theorem mem_added_remove (h : k ∈ (c.remove l).added.items) :
    k ∈ c.added.items ∧ k.heading ≠ l.heading := by
  unfold remove at h
  split at h
  · exact Roster.mem_erase.1 h
  · next hheld =>
    refine ⟨h, fun hheading => hheld ?_⟩
    exact Roster.contains_iff.2 (hheading ▸ List.mem_map_of_mem h)

end ChangeLog

/-- What a view shows and what is logged as added is held by the topology, and what is logged as added
has a heading that is shown. -/
structure Backed (held : Roster Link.ends) (r : Roster Link.heading) (c : ChangeLog) : Prop where
  shown : ∀ l ∈ r.items, l ∈ held.items
  added : ∀ l ∈ c.added.items, l ∈ held.items ∧ r.contains l.heading = true

namespace Backed

variable {held : Roster Link.ends} {r : Roster Link.heading} {c : ChangeLog} {l : Link}

theorem cleared (h : Backed held r c) : Backed held r .empty where
  shown := h.shown
  added l hl := by cases hl

theorem mem_put_of_mem {k : Link} (hnew : held.find? l.ends = none) (hk : k ∈ held.items) :
    k ∈ (held.put l).items := by
  refine Roster.mem_put.2 (.inr ⟨hk, fun hends => ?_⟩)
  rw [Roster.mem_items_iff, ← hends, hnew] at hk
  cases hk

theorem grow (h : Backed held r c) (hnew : held.find? l.ends = none) :
    Backed (held.put l) r c where
  shown k hk := mem_put_of_mem hnew (h.shown k hk)
  added k hk := (h.added k hk).imp_left (mem_put_of_mem hnew)

theorem put (h : Backed held r c) (hnew : held.find? l.ends = none) :
    Backed (held.put l) (r.put l) (c.put l) := by
  have hl : l ∈ (held.put l).items := Roster.mem_put.2 (.inl rfl)
  constructor
  · intro k hk
    obtain rfl | ⟨hold, -⟩ := Roster.mem_put.1 hk
    · exact hl
    · exact mem_put_of_mem hnew (h.shown k hold)
  · intro k hk
    obtain rfl | hold := ChangeLog.mem_added_put hk
    · exact ⟨hl, by simp [Roster.contains, Roster.find?_put]⟩
    · obtain ⟨hheld, hshown⟩ := h.added k hold
      refine ⟨mem_put_of_mem hnew hheld, ?_⟩
      rw [Roster.contains, Roster.find?_put]
      split
      · rfl
      · exact hshown

/-- A link of another heading has other ends. -/
theorem mem_erase_of_heading_ne {k : Link} (hk : k ∈ held.items) (hheading : k.heading ≠ l.heading) :
    k ∈ (held.erase l.ends).items :=
  Roster.mem_erase.2 ⟨hk, fun hends => hheading (congrArg Ends.heading hends)⟩

theorem erase (h : Backed held r c) :
    Backed (held.erase l.ends) (r.erase l.heading) (c.remove l) := by
  constructor
  · intro k hk
    obtain ⟨hk, hheading⟩ := Roster.mem_erase.1 hk
    exact mem_erase_of_heading_ne (h.shown k hk) hheading
  · intro k hk
    obtain ⟨hk, hheading⟩ := ChangeLog.mem_added_remove hk
    obtain ⟨hheld, hshown⟩ := h.added k hk
    refine ⟨mem_erase_of_heading_ne hheld hheading, ?_⟩
    rw [Roster.contains, Roster.find?_erase, if_neg hheading]
    exact hshown

/-- Where a heading is not shown, nothing of it is logged as added either. -/
theorem erase_of_not_shown (h : Backed held r c) (hnot : r.contains l.heading = false) :
    Backed (held.erase l.ends) r c := by
  have hne : ∀ k : Link, r.contains k.heading = true → k.heading ≠ l.heading := by
    intro k hk hheading
    rw [hheading, hnot] at hk
    cases hk
  constructor
  · intro k hk
    refine mem_erase_of_heading_ne (h.shown k hk) (hne k ?_)
    exact Roster.contains_iff.2 (List.mem_map_of_mem hk)
  · intro k hk
    obtain ⟨hheld, hshown⟩ := h.added k hk
    exact ⟨mem_erase_of_heading_ne hheld (hne k hshown), hshown⟩

end Backed

namespace Watch

/-- Every view of the links is backed by the topology. -/
def AllBacked (w : Watch) : Prop :=
  ∀ view, Backed w.topology.links (w.overview.roster view) (w.overview.changesOf view)

theorem allBacked_start : AllBacked {} := by
  intro view
  cases view <;> exact ⟨fun l hl => (nomatch hl), fun l hl => (nomatch hl)⟩

variable {w : Watch}

theorem AllBacked.look (h : w.AllBacked) (l : Look) : (w.look l).AllBacked := by
  intro view
  simp only [Watch.look, Overview.roster_look, Overview.changesOf_look]
  exact (h view).cleared

theorem AllBacked.observe {t' : Topology} {events : List Event} (h : w.AllBacked)
    (heffect : w.topology.LinkEffect t' events) :
    AllBacked ⟨t', w.overview.observeAll events⟩ := by
  intro view
  cases heffect with
  | none hlinks hquiet =>
    have hsame := hquiet w.overview
    have hview := h view
    cases view <;>
      simpa only [Overview.roster, Overview.changesOf, hlinks, hsame.links, hsame.interlinks,
        hsame.changes, hsame.interchanges] using hview
  | added l hnew hlinks =>
    change Backed t'.links ((w.overview.putLink l).roster view) ((w.overview.putLink l).changesOf view)
    rw [hlinks]
    unfold Overview.putLink
    cases view with
    | implicit =>
      split
      · exact (h .implicit).put hnew
      · exact (h .implicit).grow hnew
    | explicit | summary =>
      split <;> exact (h .explicit).put hnew
  | removed l hheld hlinks =>
    change Backed t'.links ((w.overview.removeLink l).roster view)
      ((w.overview.removeLink l).changesOf view)
    rw [hlinks]
    unfold Overview.removeLink
    cases view with
    | implicit =>
      split
      · exact (h .implicit).erase
      · next hnot => exact (h .implicit).erase_of_not_shown (Bool.eq_false_iff.2 hnot)
    | explicit | summary =>
      split <;> exact (h .explicit).erase

theorem allBacked_run (steps : List WatchStep) : (run {} steps).AllBacked := by
  induction steps using List.reverseRecOn with
  | nil => exact allBacked_start
  | append_singleton steps s ih =>
    rw [run_concat]
    cases s with
    | act op => exact ih.observe (Topology.linkEffect_act _ op)
    | look l => exact ih.look l

/-- **No dead link is shown.** Whatever is done and whoever looks, each link in a view is a link of the
topology at that moment, and so is each link that the changes of a view hold as added. -/
theorem shown_links_held (steps : List WatchStep) (view : LinkView) :
    let w := run {} steps
    (∀ entry ∈ (w.overview.readLinks view).1, ∃ l ∈ w.topology.links.items,
        entry.ends = l.ends ∧ (view = .explicit → entry = .explicit l))
      ∧ ∀ l ∈ (w.overview.changesOf view).added.items, l ∈ w.topology.links.items := by
  intro w
  have hbacked : Backed w.topology.links (w.overview.roster view) (w.overview.changesOf view) :=
    allBacked_run steps view
  refine ⟨fun entry hentry => ?_, fun l hl => (hbacked.added l hl).1⟩
  rw [Overview.readLinks, Overview.linksOf_eq, Overview.renderLinks, List.mem_map] at hentry
  obtain ⟨l, hl, rfl⟩ := hentry
  refine ⟨l, hbacked.shown l (List.mem_mergeSort.1 hl), ?_⟩
  cases view <;> simp [LinkEntry.explicit, LinkEntry.summary]

theorem heading_mem_shownEnds (o : Overview) (view : LinkView) (heading : Heading) :
    heading ∈ (o.shownEnds view).map Ends.heading ↔ ∃ l, (o.roster view).find? heading = some l := by
  rw [Overview.shownEnds_eq, Overview.mem_headings_renderLinks, Option.isSome_iff_exists]

/-- A heading that has a link is shown unless the last event about it was a removal. -/
theorem exists_find?_links_iff (steps : List WatchStep) (heading : Heading) :
    (∃ l, (run {} steps).overview.links.find? heading = some l)
      ↔ (∃ l ∈ (run {} steps).topology.links.items, l.heading = heading)
        ∧ ¬ ∃ l, lastTold? heading (told {} steps) = some (.linkRemoved l) := by
  simp only [find?_links_run]
  constructor
  · rintro ⟨l, hlast⟩
    refine ⟨⟨l, ?_, ?_⟩, by simp [hlast]⟩
    · have hshown := Roster.mem_of_find? ((find?_links_run steps heading l).2 hlast)
      exact (allBacked_run steps .explicit).shown l hshown
    · exact Roster.key_of_find? ((find?_links_run steps heading l).2 hlast)
  · rintro ⟨⟨l, hheld, rfl⟩, hkept⟩
    have htold : .linkAdded l ∈ told {} steps :=
      (mem_told_of_mem_links hheld).resolve_left (fun hbefore => by cases hbefore)
    obtain ⟨last, hlast, habout⟩ := exists_lastTold? htold rfl
    cases last with
    | linkAdded k => exact ⟨k, hlast⟩
    | linkRemoved k => exact absurd ⟨k, hlast⟩ hkept
    | deviceAdded | hostAdded | hostMoved => cases habout

/-- **Which connected pairs are shown.** A heading is in the full views of the links exactly when the
topology has a link of it and the last link of it that was added or removed was added. -/
theorem heading_shown_iff (steps : List WatchStep) (heading : Heading) :
    let w := run {} steps
    let connected := ∃ l ∈ w.topology.links.items, l.heading = heading
    let lost := ∃ l, lastTold? heading (told {} steps) = some (.linkRemoved l)
    (heading ∈ (w.overview.shownEnds .explicit).map Ends.heading ↔ connected ∧ ¬ lost)
      ∧ (heading ∈ (w.overview.shownEnds .summary).map Ends.heading ↔ connected ∧ ¬ lost) := by
  intro w connected lost
  rw [heading_mem_shownEnds, heading_mem_shownEnds]
  exact ⟨exists_find?_links_iff steps heading, exists_find?_links_iff steps heading⟩

/-- Two links of one heading, of which the second is lost. -/
def secondLost : List WatchStep :=
  linkedOnce
    ++ [.act (.detect (.direct ⟨⟨⟨"of:1"⟩, 2⟩, ⟨⟨"of:2"⟩, 2⟩⟩)),
        .act (.lose ⟨⟨⟨"of:1"⟩, 2⟩, ⟨⟨"of:2"⟩, 2⟩⟩)]

/-- A heading that has a link need not be shown. -/
theorem connected_heading_not_shown :
    ¬ ∀ (steps : List WatchStep) (heading : Heading),
      (∃ l ∈ (run {} steps).topology.links.items, l.heading = heading) →
      heading ∈ ((run {} steps).overview.shownEnds .explicit).map Ends.heading
        ∧ heading ∈ ((run {} steps).overview.shownEnds .summary).map Ends.heading := by
  intro h
  have hconnected : ∃ l ∈ (run {} secondLost).topology.links.items,
      l.heading = ⟨⟨"of:1"⟩, ⟨"of:2"⟩⟩ := by decide +kernel
  have hshown := (h secondLost ⟨⟨"of:1"⟩, ⟨"of:2"⟩⟩ hconnected).1
  rw [Overview.shownEnds_eq, Overview.mem_headings_renderLinks] at hshown
  revert hshown
  decide +kernel

end Watch

end Multidomain
