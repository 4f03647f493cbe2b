import Multidomain.Proofs.Orchestration.SteadyChild

/-!
# A parent that follows its child

A parent under the explicit abstraction asks its child for its devices, then for its links, and polls it
for edge updates from then on, while the child gains and loses links. After every poll the parent has
the links that the child shows, at the same ports of the same devices under the orchestrator's scheme,
and all of them as active direct links.

The two nodes meet in lists of ends. At the child, `Tracks` says what the change log makes of each
heading, and since a heading always has the same ports, this is said of ends as well. At the parent,
additions and deletions act on the ends under the orchestrator's scheme, which are as different as the
ends are, because no two ids have the same local part. `Follows` is the invariant between two polls.
-/

namespace Multidomain

/-! ### Child and parent -/

/-- What can happen while a parent follows its child. -/
inductive Beat where
  | act (op : StoreOp)
  | poll
  deriving DecidableEq, Repr

/-- What it is to the child. -/
def Beat.step : Beat → WatchStep
  | act op => .act op
  | poll => .look (.edgeUpdates .explicit)

structure Mirror where
  child : Watch
  parent : Domain

namespace Mirror

/-- The parent is new, asks for the devices, and for the links when the child has gone on. -/
def introduce (address : String) (child : Watch) (meanwhile : List StoreOp) : Mirror :=
  let devices := TopologyDocument.devices
    ((child.overview.deviceEntries .explicit).map DeviceEntry.toJson)
  let later := child.actAll meanwhile
  let links := TopologyDocument.links
    ((later.overview.readLinks .explicit).1.map LinkEntry.toJson)
  { child := later.look (.links .explicit)
    parent := (Domain.empty.receive .explicit address devices.toJson).receive .explicit address
      links.toJson }

def beat (address : String) (m : Mirror) : Beat → Mirror
  | .act op => { m with child := m.child.act op }
  | .poll =>
    let updates := TopologyDocument.edgeUpdates (m.child.overview.takeEdgeUpdates .explicit).1
    { child := m.child.look (.edgeUpdates .explicit)
      parent := m.parent.receive .explicit address updates.toJson }

def run (address : String) (m : Mirror) (beats : List Beat) : Mirror := beats.foldl (beat address) m

theorem run_concat (address : String) (m : Mirror) (beats : List Beat) (b : Beat) :
    m.run address (beats ++ [b]) = (m.run address beats).beat address b := by
  simp [run, List.foldl_append]

end Mirror

/-! ### Between two polls -/

/-- The entries of links in full. -/
def entriesOf (r : Roster Link.heading) : List LinkEntry := Overview.renderLinks .explicit r.items

theorem mem_ends_iff_find? {r : Roster Link.heading} {e : Ends} :
    e ∈ (entriesOf r).map LinkEntry.ends ↔ (r.find? e.heading).map Link.ends = some e :=
  Overview.mem_ends_renderLinks

theorem mem_ends_entriesOf {r : Roster Link.heading} {e : Ends} :
    e ∈ (entriesOf r).map LinkEntry.ends ↔ ∃ l ∈ r.items, l.ends = e := by
  rw [entriesOf, Overview.ends_renderLinks, List.mem_map]
  simp only [List.mem_mergeSort]

theorem exists_link_of_mem_entriesOf {r : Roster Link.heading} {entry : LinkEntry}
    (h : entry ∈ entriesOf r) : ∃ l ∈ r.items, l.ends = entry.ends :=
  mem_ends_entriesOf.1 (List.mem_map_of_mem h)

/-- Elements that are added and taken away are so under a map that tells them apart. -/
theorem mem_map_iff_of_replay {α β : Type} {f : α → β} {held now added deleted : List α}
    (hnow : ∀ a, a ∈ now ↔ (a ∈ held ∨ a ∈ added) ∧ a ∉ deleted)
    (hinj : ∀ a, a ∈ held ∨ a ∈ added → ∀ b ∈ deleted, f a = f b → a = b) (b : β) :
    b ∈ now.map f ↔ (b ∈ held.map f ∨ b ∈ added.map f) ∧ b ∉ deleted.map f := by
  simp only [List.mem_map, ← exists_or, ← or_and_right]
  constructor
  · rintro ⟨a, ha, rfl⟩
    obtain ⟨hkept, hnot⟩ := (hnow a).1 ha
    refine ⟨⟨a, hkept, rfl⟩, ?_⟩
    rintro ⟨c, hc, heq⟩
    exact hnot (hinj a hkept c hc heq.symm ▸ hc)
  · rintro ⟨⟨a, hkept, rfl⟩, hnot⟩
    exact ⟨a, (hnow a).2 ⟨hkept, fun ha => hnot ⟨a, ha, rfl⟩⟩, rfl⟩

namespace Mirror

open Explicit Watch

variable {address : String} {m : Mirror}

theorem parent_poll : (m.beat address .poll).parent
    = m.parent.hearAll .explicit
        ((entriesOf m.child.overview.changes.added).map (linkReport address .added)
          ++ (entriesOf m.child.overview.changes.deleted).map (linkReport address .removed)) :=
  Domain.receive_updates m.parent address _ _

theorem parent_introduce (child : Watch) (meanwhile : List StoreOp) :
    (introduce address child meanwhile).parent
      = (Domain.empty.hearAll .explicit
          ((child.overview.deviceEntries .explicit).map (deviceReport address))).hearAll .explicit
        ((entriesOf (child.actAll meanwhile).overview.links).map (linkReport address .added)) := by
  rw [introduce, Domain.receive_devices, Domain.receive_links]
  rfl

theorem present_of_shown {w : Watch} {steps : List WatchStep} (h : w = Watch.run {} steps)
    {l : Link} (hl : l ∈ w.overview.links.items) :
    l ∈ (Watch.run {} steps).topology.links.items :=
  (allBacked_run steps .explicit).shown l (h ▸ hl)

theorem present_of_added {w : Watch} {steps : List WatchStep} (h : w = Watch.run {} steps)
    {l : Link} (hl : l ∈ w.overview.changes.added.items) :
    l ∈ (Watch.run {} steps).topology.links.items :=
  ((allBacked_run steps .explicit).added l (h ▸ hl)).1

/-- Between two polls the parent holds the links that the child showed at the first one, `held`, and the
child has logged what has become of them since. The parent knows the devices of `base`, and no link
occurs that is not among `past`. -/
structure Follows (m : Mirror) (base : Topology) (past : List Link) (held : Roster Link.heading)
    (last : Heading → Option Link) : Prop where
  knows : ∀ id, base.knows id = true → m.parent.topology.knows id.requalified = true
  holds : m.parent.topology.HoldsDirect
    (· ∈ ((entriesOf held).map LinkEntry.ends).map Ends.requalified)
  tracks : ∀ heading, Tracks (held.find? heading) (last heading)
    (m.child.overview.links.find? heading) (m.child.overview.changes.added.find? heading)
    (m.child.overview.changes.deleted.find? heading)
  held_past : ∀ l ∈ held.items, l ∈ past
  last_past : ∀ heading l, last heading = some l → l.heading = heading ∧ l ∈ past

variable {base : Topology} {past : List Link} {held : Roster Link.heading}
  {last : Heading → Option Link}

theorem Follows.mono {past' : List Link} (h : m.Follows base past held last) (hpast : past ⊆ past') :
    m.Follows base past' held last where
  knows := h.knows
  holds := h.holds
  tracks := h.tracks
  held_past l hl := hpast (h.held_past l hl)
  last_past heading l hl := (h.last_past heading l hl).imp_right fun hl => hpast hl

/-- The updates of the child come out right when the ends are counted. -/
theorem Follows.mem_ends_iff (h : m.Follows base past held last)
    (hports : ∀ k ∈ past, ∀ l ∈ past, k.heading = l.heading → k.ends = l.ends) (e : Ends) :
    e ∈ (entriesOf m.child.overview.links).map LinkEntry.ends
      ↔ (e ∈ (entriesOf held).map LinkEntry.ends
          ∨ e ∈ (entriesOf m.child.overview.changes.added).map LinkEntry.ends)
        ∧ e ∉ (entriesOf m.child.overview.changes.deleted).map LinkEntry.ends := by
  simp only [mem_ends_iff_find?]
  refine (h.tracks e.heading).ends_now_iff_of_same (fun b l hb hl => ?_) e
  obtain ⟨hheading, hpast⟩ := h.last_past e.heading l hl
  have hbefore := h.held_past b (Roster.mem_of_find? hb)
  exact hports l hpast b hbefore (hheading.trans (Roster.key_of_find? hb).symm)

theorem Follows.mem_past_of_deleted (h : m.Follows base past held last) {l : Link}
    (hl : l ∈ m.child.overview.changes.deleted.items) : l ∈ past := by
  have htracks := h.tracks l.heading
  rw [Roster.mem_items_iff.1 hl] at htracks
  exact (h.last_past _ _ htracks.last_of_deleted).2

variable {history : List WatchStep} {later : List WatchStep}

/-- An operation at the child is logged. -/
theorem Follows.act {op : StoreOp} (h : m.Follows base (linksOver (history ++ later)) held last)
    (hchild : m.child = Watch.run {} (history ++ later))
    (hsteady : Steady history (later ++ [.act op])) :
    ∃ last', (m.beat address (.act op)).Follows base
      (linksOver (history ++ (later ++ [.act op]))) held last' := by
  have hdone : history ++ later <+: history ++ (later ++ [.act op]) :=
    (List.prefix_append_right_inj history).2 (List.prefix_append later _)
  have hafter : m.child.act op = Watch.run {} (history ++ (later ++ [.act op])) := by
    rw [hchild, ← List.append_assoc, Watch.run_concat]
    rfl
  have hplain := hsteady.noParallels hdone
  have hplain' := hsteady.noParallels List.prefix_rfl
  have hfaithful := hsteady.take.faithful
  rw [← hchild] at hplain hfaithful
  rw [← hafter] at hplain'
  have hturn := hfaithful.turn_act op hplain hplain' .explicit
  have hbefore := h.mono (linksOver_subset hdone)
  -- The parent stays as it is; at the child one more turn is taken, and with it one more link may be
  -- the one that was shown last.
  refine ⟨fun heading => ((m.child.act op).overview.links.find? heading).or (last heading),
    h.knows, h.holds, fun heading => tracks_turn hturn h.tracks heading, hbefore.held_past,
    fun heading l hl => ?_⟩
  obtain hnow | ⟨-, hearlier⟩ := Option.or_eq_some_iff.1 hl
  · have hpresent := present_of_shown hafter (Roster.mem_of_find? hnow)
    exact ⟨Roster.key_of_find? hnow, mem_linksOver_of_mem_links hpresent⟩
  · exact hbefore.last_past heading l hearlier

theorem knowsEnd_requalified {parent : Topology} (hsteady : Steady history later)
    (hknows : ∀ id, (Watch.run {} history).topology.knows id = true →
      parent.knows id.requalified = true) {l : Link}
    (hl : l ∈ (Watch.run {} (history ++ later)).topology.links.items) :
    parent.KnowsEnd l.ends.requalified := by
  have hsame := Topology.knows_of_devices hsteady.devices
  exact (knowsEnd_run _ l hl).imp (fun hsrc => hknows _ (hsame _ ▸ hsrc))
    fun hdst => hknows _ (hsame _ ▸ hdst)

theorem wellFormed_of_mem_entriesOf (hsteady : Steady history later) {r : Roster Link.heading}
    (hpast : ∀ l ∈ r.items, l ∈ linksOver (history ++ later)) :
    ∀ entry ∈ entriesOf r, entry.ends.WellFormed := by
  intro entry hentry
  obtain ⟨l, hl, hends⟩ := exists_link_of_mem_entriesOf hentry
  exact hends ▸ hsteady.ends_wellFormed (hpast l hl)

section Poll

variable (h : m.Follows (Watch.run {} history).topology (linksOver (history ++ later)) held last)
  (hchild : m.child = Watch.run {} (history ++ later)) (hsteady : Steady history later)
include h hchild hsteady

theorem Follows.wellFormed_updates :
    (∀ entry ∈ entriesOf m.child.overview.changes.added, entry.ends.WellFormed)
      ∧ ∀ entry ∈ entriesOf m.child.overview.changes.deleted, entry.ends.WellFormed := by
  constructor
  · refine wellFormed_of_mem_entriesOf hsteady fun l hl => ?_
    exact mem_linksOver_of_mem_links (present_of_added hchild hl)
  · exact wellFormed_of_mem_entriesOf hsteady fun l => h.mem_past_of_deleted

theorem Follows.knows_poll (id : DeviceId)
    (hid : (Watch.run {} history).topology.knows id = true) :
    (m.beat address .poll).parent.topology.knows id.requalified = true := by
  obtain ⟨hadded, hdeleted⟩ := h.wellFormed_updates hchild hsteady
  rw [parent_poll, Domain.hearAll_append]
  refine (Topology.knows_of_devices ?_ id.requalified).trans (h.knows id hid)
  exact (devices_hearAll_links _ address .removed hdeleted).trans
    (devices_hearAll_links _ address .added hadded)

/-- No deletion runs into a link that stays. -/
theorem Follows.ends_eq_of_deleted {e f : Ends}
    (he : e ∈ (entriesOf held).map LinkEntry.ends
      ∨ e ∈ (entriesOf m.child.overview.changes.added).map LinkEntry.ends)
    (hf : f ∈ (entriesOf m.child.overview.changes.deleted).map LinkEntry.ends)
    (heq : e.requalified = f.requalified) : e = f := by
  have hlink : ∃ l ∈ linksOver (history ++ later), l.ends = e := by
    obtain hheld | hadd := he
    · obtain ⟨l, hl, hends⟩ := mem_ends_entriesOf.1 hheld
      exact ⟨l, h.held_past l hl, hends⟩
    · obtain ⟨l, hl, hends⟩ := mem_ends_entriesOf.1 hadd
      exact ⟨l, mem_linksOver_of_mem_links (present_of_added hchild hl), hends⟩
  obtain ⟨l, hl, rfl⟩ := hlink
  obtain ⟨k, hk, rfl⟩ := mem_ends_entriesOf.1 hf
  exact hsteady.ends_eq_of_requalified hl (h.mem_past_of_deleted hk) heq

theorem Follows.holds_poll : (m.beat address .poll).parent.topology.HoldsDirect
    (· ∈ ((entriesOf m.child.overview.links).map LinkEntry.ends).map Ends.requalified) := by
  obtain ⟨hadded, hdeleted⟩ := h.wellFormed_updates hchild hsteady
  rw [parent_poll]
  refine holdsDirect_hearAll_updates address h.holds (fun entry hentry => ?_) hdeleted
    (mem_map_iff_of_replay (h.mem_ends_iff hsteady.ports) fun _ he _ hf =>
      h.ends_eq_of_deleted hchild hsteady he hf)
  obtain ⟨l, hl, hends⟩ := exists_link_of_mem_entriesOf hentry
  have hknown := knowsEnd_requalified hsteady h.knows (present_of_added hchild hl)
  exact ⟨hadded entry hentry, hends ▸ hknown⟩

/-- At a poll the parent catches up with the child. -/
theorem Follows.poll : (m.beat address .poll).Follows (Watch.run {} history).topology
    (linksOver (history ++ later)) m.child.overview.links m.child.overview.links.find? where
  knows := h.knows_poll hchild hsteady
  holds := h.holds_poll hchild hsteady
  tracks _ := .begin _
  held_past _ hl := mem_linksOver_of_mem_links (present_of_shown hchild hl)
  last_past _ _ hl := ⟨Roster.key_of_find? hl,
    mem_linksOver_of_mem_links (present_of_shown hchild (Roster.mem_of_find? hl))⟩

end Poll

/-- The devices of the child are known to a new parent that has taken them up. -/
theorem hearAll_deviceEntries (address : String) (hwell : ∀ id ∈ idsOver history, id.WellFormed) :
    let d := Domain.empty.hearAll .explicit
      (((Watch.run {} history).overview.deviceEntries .explicit).map (deviceReport address))
    d.topology.links = .empty
      ∧ ∀ id, (Watch.run {} history).topology.knows id = true →
        d.topology.knows id.requalified = true := by
  have hentries : ∀ entry ∈ (Watch.run {} history).overview.deviceEntries .explicit,
      entry.id.WellFormed := by
    intro entry hentry
    obtain ⟨d, hd, rfl⟩ := List.mem_map.1 hentry
    rw [List.mem_mergeSort, devices_run] at hd
    exact hwell d.id (mem_idsOver_of_mem_devices hd)
  obtain ⟨hlinks, hknown⟩ := hearAll_devices Domain.empty address hentries
  refine ⟨hlinks, fun id hid => hknown id.requalified (.inr ?_)⟩
  obtain ⟨d, hd, rfl⟩ := List.mem_map.1 (Roster.contains_iff.1 hid)
  rw [← devices_run] at hd
  exact ⟨.explicit d, List.mem_map.2 ⟨d, List.mem_mergeSort.2 hd, rfl⟩, rfl⟩

/-- The parent begins with the links that the child shows. -/
theorem follows_introduce (address : String) {meanwhile : List StoreOp}
    (hlater : later = meanwhile.map .act ++ [.look (.links .explicit)])
    (hsteady : Steady history later) :
    let m := introduce address (Watch.run {} history) meanwhile
    m.child = Watch.run {} (history ++ later)
      ∧ m.Follows (Watch.run {} history).topology (linksOver (history ++ later))
        m.child.overview.links m.child.overview.links.find? := by
  intro m
  have hchild : m.child = Watch.run {} (history ++ later) := by
    simp [hlater, m, introduce, Watch.run, Watch.actAll, List.foldl_append, List.foldl_map,
      Watch.step]
  have hpast : ∀ l ∈ m.child.overview.links.items, l ∈ linksOver (history ++ later) :=
    fun l hl => mem_linksOver_of_mem_links (present_of_shown hchild hl)
  have hwell := wellFormed_of_mem_entriesOf hsteady hpast
  obtain ⟨hnone, hknows⟩ := hearAll_deviceEntries address fun id hid =>
    hsteady.wellFormed id (idsOver_subset (List.prefix_append history later) hid)
  -- The parent knows no link before, so those that it takes up now are all that it has.
  have hparent : m.parent = _ := parent_introduce (Watch.run {} history) meanwhile
  refine ⟨hchild, ?_, ?_, fun heading => Tracks.begin _, hpast,
    fun heading l hl => ⟨Roster.key_of_find? hl, hpast l (Roster.mem_of_find? hl)⟩⟩
  · intro id hid
    rw [hparent]
    exact (Topology.knows_of_devices (devices_hearAll_links _ address .added hwell) _).trans
      (hknows id hid)
  · have hempty : (Domain.empty.hearAll .explicit (((Watch.run {} history).overview.deviceEntries
        .explicit).map (deviceReport address))).topology.HoldsDirect fun _ => False := by
      intro l
      simp [hnone, Roster.empty]
    rw [hparent]
    refine (holdsDirect_hearAll_added address hempty fun entry hentry => ?_).congr fun e => ?_
    · refine ⟨hwell entry hentry, ?_⟩
      obtain ⟨l, hl, hends⟩ := exists_link_of_mem_entriesOf hentry
      exact hends ▸ knowsEnd_requalified hsteady hknows (present_of_shown hchild hl)
    · simp only [false_or, List.mem_map, exists_exists_and_eq_and, eq_comm (a := e)]
      rfl

/-- What the child goes through after its devices have been read. -/
def stepsAfter (meanwhile : List StoreOp) (beats : List Beat) : List WatchStep :=
  meanwhile.map .act ++ .look (.links .explicit) :: beats.map Beat.step

theorem stepsAfter_concat (meanwhile : List StoreOp) (beats : List Beat) (b : Beat) :
    stepsAfter meanwhile (beats ++ [b]) = stepsAfter meanwhile beats ++ [b.step] := by
  simp [stepsAfter]

/-- By induction on the beats, each of which is an operation or a poll. -/
theorem follows_run (address : String) {meanwhile : List StoreOp} (beats : List Beat)
    (hsteady : Steady history (stepsAfter meanwhile beats)) :
    let m := (introduce address (Watch.run {} history) meanwhile).run address beats
    m.child = Watch.run {} (history ++ stepsAfter meanwhile beats)
      ∧ ∃ held last, m.Follows (Watch.run {} history).topology
        (linksOver (history ++ stepsAfter meanwhile beats)) held last := by
  induction beats using List.reverseRecOn with
  | nil =>
    obtain ⟨hchild, hfollows⟩ := follows_introduce address rfl hsteady
    exact ⟨hchild, _, _, hfollows⟩
  | append_singleton beats b ih =>
    rw [stepsAfter_concat] at hsteady ⊢
    rw [run_concat]
    obtain ⟨hchild, held, last, hfollows⟩ := ih hsteady.take
    refine ⟨?_, ?_⟩
    · rw [← List.append_assoc, Watch.run_concat, ← hchild]
      cases b <;> rfl
    · cases b with
      | act op =>
        obtain ⟨last', hact⟩ := hfollows.act hchild hsteady
        exact ⟨held, last', hact⟩
      | poll =>
        refine ⟨_, _, (hfollows.poll hchild hsteady.take).mono (linksOver_subset ?_)⟩
        exact (List.prefix_append_right_inj history).2 (List.prefix_append _ _)

theorem Follows.links_perm (h : m.Follows base past m.child.overview.links last)
    (hinj : ∀ k ∈ past, ∀ l ∈ past, k.ends.requalified = l.ends.requalified → k.ends = l.ends) :
    m.parent.topology.links.items.Perm
      (m.child.overview.links.items.map fun l => .direct l.ends.requalified) := by
  have hnodup : (m.child.overview.links.items.map fun l =>
      Link.direct l.ends.requalified).Nodup := by
    refine List.Nodup.map_on (fun k hk l hl heq => ?_)
      (List.Nodup.of_map _ m.child.overview.links.nodup_keys)
    have hends := hinj k (h.held_past k hk) l (h.held_past l hl) (congrArg Link.ends heq)
    exact Roster.eq_of_key_eq hk hl (congrArg Ends.heading hends)
  refine (List.perm_ext_iff_of_nodup
    (List.Nodup.of_map _ m.parent.topology.links.nodup_keys) hnodup).2 fun l => ?_
  rw [h.holds l, List.mem_map]
  constructor
  · rintro ⟨hdirect, hheld⟩
    obtain ⟨e, he, hends⟩ := List.mem_map.1 hheld
    obtain ⟨k, hk, rfl⟩ := mem_ends_entriesOf.1 he
    exact ⟨k, hk, by rw [hends, ← hdirect]⟩
  · rintro ⟨k, hk, rfl⟩
    exact ⟨rfl, List.mem_map_of_mem (mem_ends_entriesOf.2 ⟨k, hk, rfl⟩)⟩

/-- **The parent stays in step.** After every poll the links of the parent are those of the child under
the orchestrator's scheme, each as an active direct link. -/
theorem links_perm_after_poll (address : String) (history : List WatchStep)
    (meanwhile : List StoreOp) (beats : List Beat)
    (hsteady : Steady history (stepsAfter meanwhile (beats ++ [.poll]))) :
    let m := (introduce address (Watch.run {} history) meanwhile).run address (beats ++ [.poll])
    m.parent.topology.links.items.Perm
      (m.child.overview.links.items.map fun l => .direct l.ends.requalified) := by
  rw [stepsAfter_concat] at hsteady
  obtain ⟨hchild, held, last, hfollows⟩ := follows_run address beats hsteady.take
  rw [run_concat]
  exact (hfollows.poll hchild hsteady.take).links_perm fun k hk l =>
    hsteady.take.ends_eq_of_requalified hk

/-- A link that is not direct. -/
def indirectLink : Link := { ends := ⟨⟨⟨"of:1"⟩, 1⟩, ⟨⟨"of:2"⟩, 1⟩⟩, kind := .indirect }

/-- Two devices and the link between them. -/
def joinedIndirectly : List WatchStep :=
  [.act (.connect (.switch ⟨"of:1"⟩)), .act (.connect (.switch ⟨"of:2"⟩)),
   .act (.detect indirectLink)]

theorem steady_joinedIndirectly : Steady joinedIndirectly (stepsAfter [] [.poll]) where
  fixed := by decide +kernel
  wellFormed := by decide +kernel
  apart := by decide +kernel
  ports := by decide +kernel

/-- The type of a link does not get across. -/
theorem links_not_perm_after_poll :
    ¬ ∀ (address : String) (history : List WatchStep) (meanwhile : List StoreOp)
      (beats : List Beat),
      Steady history (stepsAfter meanwhile (beats ++ [.poll])) →
      let m := (introduce address (Watch.run {} history) meanwhile).run address (beats ++ [.poll])
      m.parent.topology.links.items.Perm
        (m.child.overview.links.items.map fun l => { l with ends := l.ends.requalified }) := by
  intro h
  have hperm := h "10.0.0.2" joinedIndirectly [] [] steady_joinedIndirectly
  obtain ⟨-, held, last, hfollows⟩ :=
    follows_run "10.0.0.2" [.poll] steady_joinedIndirectly
  have hshown : indirectLink ∈ ((introduce "10.0.0.2" (Watch.run {} joinedIndirectly) []).run
      "10.0.0.2" [.poll]).child.overview.links.items := by decide +kernel
  -- The parent should hold the link with its type, but all its links are direct.
  have hparent := hperm.mem_iff.2 (List.mem_map_of_mem hshown)
  have hkind := congrArg Link.kind ((hfollows.holds _).1 hparent).1
  cases hkind

/-- Two devices, a direct link and one that leads out. -/
def joinedOutwards : List WatchStep :=
  [.act (.connect (.switch ⟨"of:1"⟩)), .act (.connect (.switch ⟨"of:2"⟩)),
   .act (.detect (.direct ⟨⟨⟨"of:1"⟩, 1⟩, ⟨⟨"of:2"⟩, 1⟩⟩)),
   .act (.detect (.direct ⟨⟨⟨"of:2"⟩, 2⟩, ⟨⟨"of:9"⟩, 1⟩⟩))]

/-- The link that leads out is lost, a poll later it is back, and the other one is lost. -/
def linksInterrupted : List Beat :=
  [.act (.lose ⟨⟨⟨"of:2"⟩, 2⟩, ⟨⟨"of:9"⟩, 1⟩⟩), .poll,
   .act (.detect (.direct ⟨⟨⟨"of:2"⟩, 2⟩, ⟨⟨"of:9"⟩, 1⟩⟩)),
   .act (.lose ⟨⟨⟨"of:1"⟩, 1⟩, ⟨⟨"of:2"⟩, 1⟩⟩)]

theorem steady_linksInterrupted :
    Steady joinedOutwards
      (stepsAfter [.detect indirectLink.reversed] (linksInterrupted ++ [.poll])) where
  fixed := by decide +kernel
  wellFormed := by decide +kernel
  apart := by decide +kernel
  ports := by decide +kernel

theorem links_perm_after_poll_linksInterrupted :
    ((introduce "10.0.0.2" (Watch.run {} joinedOutwards) [.detect indirectLink.reversed]).run
      "10.0.0.2" (linksInterrupted ++ [.poll])).parent.topology.links.items.Perm
        [.direct ⟨⟨⟨"exvs:2"⟩, 1⟩, ⟨⟨"exvs:1"⟩, 1⟩⟩, .direct ⟨⟨⟨"exvs:2"⟩, 2⟩, ⟨⟨"exvs:9"⟩, 1⟩⟩] := by
  have hperm := links_perm_after_poll "10.0.0.2" joinedOutwards [.detect indirectLink.reversed]
    linksInterrupted steady_linksInterrupted
  have hchild : ((introduce "10.0.0.2" (Watch.run {} joinedOutwards)
      [.detect indirectLink.reversed]).run "10.0.0.2"
        (linksInterrupted ++ [.poll])).child.overview.links.items.map
          (fun l => Link.direct l.ends.requalified)
      = [.direct ⟨⟨⟨"exvs:2"⟩, 1⟩, ⟨⟨"exvs:1"⟩, 1⟩⟩, .direct ⟨⟨⟨"exvs:2"⟩, 2⟩, ⟨⟨"exvs:9"⟩, 1⟩⟩] := by
    decide +kernel
  exact hchild ▸ hperm

end Mirror

end Multidomain
