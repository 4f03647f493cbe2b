import Mathlib.Data.List.Infix
import Multidomain.Proofs.Topology.Watch
import Multidomain.Proofs.Wire.Entry

/-!
# What a parent makes of edge updates

A parent that has read the links of a view and then applies the edge updates of the view wants to
end up with the links that the view shows now. Additions and deletions cancel by heading, while the
links that travel have ports, so a link that comes back between two other ports leaves no trace in
the updates. `Tracks` says, heading by heading, what the updates hold: an addition where a link is
shown now and none was before, a deletion of the link shown last where one was shown before and none
is now, and nothing else. Replaying is therefore right for headings, and it is right for links
exactly where the link shown last is the one that the parent holds.
-/

namespace Multidomain

namespace ChangeLog

variable {c : ChangeLog} {l k : Link}

theorem put_of_deleted (h : c.deleted.find? l.heading = some k) :
    c.put l = { c with deleted := c.deleted.erase l.heading } := by
  simp [put, Roster.contains, h]

theorem put_of_not_deleted (h : c.deleted.find? l.heading = none) :
    c.put l = { c with added := c.added.put l } := by
  simp [put, Roster.contains, h]

theorem remove_of_added (h : c.added.find? l.heading = some k) :
    c.remove l = { c with added := c.added.erase l.heading } := by
  simp [remove, Roster.contains, h]

theorem remove_of_not_added (h : c.added.find? l.heading = none) :
    c.remove l = { c with deleted := c.deleted.put l } := by
  simp [remove, Roster.contains, h]

theorem find?_put_of_ne {heading : Heading} (h : l.heading ≠ heading) :
    (c.put l).added.find? heading = c.added.find? heading
      ∧ (c.put l).deleted.find? heading = c.deleted.find? heading := by
  unfold put
  split
  · simp [Roster.find?_erase, h.symm]
  · simp [Roster.find?_put, h]

theorem find?_remove_of_ne {heading : Heading} (h : l.heading ≠ heading) :
    (c.remove l).added.find? heading = c.added.find? heading
      ∧ (c.remove l).deleted.find? heading = c.deleted.find? heading := by
  unfold remove
  split
  · simp [Roster.find?_erase, h.symm]
  · simp [Roster.find?_put, h]

end ChangeLog

/-- What is known of one heading in a period of changes: the link that was shown as it began, the
link that was shown last, the link that is shown now, and the link logged as added and as deleted. -/
inductive Tracks : Option Link → Option Link → Option Link → Option Link → Option Link → Prop where
  | absent (last : Option Link) : Tracks none last none none none
  | fresh (l : Link) : Tracks none (some l) (some l) (some l) none
  | gone (b l : Link) : Tracks (some b) (some l) none none (some l)
  | kept (b l : Link) : Tracks (some b) (some l) (some l) none none

/-- A period begins with an empty log. -/
theorem Tracks.begin (now : Option Link) : Tracks now now now none none := by
  cases now with
  | none => exact .absent none
  | some l => exact .kept l l

/-- The link that is shown now is the link that was shown last. -/
theorem Tracks.still {before last now added deleted : Option Link}
    (h : Tracks before last now added deleted) : Tracks before (now.or last) now added deleted := by
  cases h with
  | absent last => exact .absent last
  | fresh l => exact .fresh l
  | gone b l => exact .gone b l
  | kept b l => exact .kept b l

theorem Tracks.enters {before last : Option Link} {c : ChangeLog} {l : Link}
    (h : Tracks before last none (c.added.find? l.heading) (c.deleted.find? l.heading)) :
    Tracks before (some l) (some l) ((c.put l).added.find? l.heading)
      ((c.put l).deleted.find? l.heading) := by
  generalize hadded : c.added.find? l.heading = added at h
  generalize hdeleted : c.deleted.find? l.heading = deleted at h
  cases h with
  | absent =>
    rw [ChangeLog.put_of_not_deleted hdeleted, Roster.find?_put_self, hdeleted]
    exact .fresh l
  | gone b =>
    rw [ChangeLog.put_of_deleted hdeleted, Roster.find?_erase_self, hadded]
    exact .kept b l

theorem Tracks.leaves {before last : Option Link} {c : ChangeLog} {l : Link}
    (h : Tracks before last (some l) (c.added.find? l.heading) (c.deleted.find? l.heading)) :
    Tracks before last none ((c.remove l).added.find? l.heading)
      ((c.remove l).deleted.find? l.heading) := by
  generalize hadded : c.added.find? l.heading = added at h
  generalize hdeleted : c.deleted.find? l.heading = deleted at h
  cases h with
  | fresh =>
    rw [ChangeLog.remove_of_added hadded, Roster.find?_erase_self, hdeleted]
    exact .absent (some l)
  | kept b =>
    rw [ChangeLog.remove_of_not_added hadded, Roster.find?_put_self, hadded]
    exact .gone b l

/-- Headings are replayed. -/
theorem Tracks.isSome_now_iff {before last now added deleted : Option Link}
    (h : Tracks before last now added deleted) :
    now.isSome ↔ (before.isSome ∧ ¬ deleted.isSome) ∨ added.isSome := by
  cases h <;> simp

/-- Ends are replayed where the link shown last has the ends of the link shown before. -/
theorem Tracks.ends_now_iff {before last now added deleted : Option Link}
    (h : Tracks before last now added deleted)
    (hlast : ∀ b, before = some b → last.map Link.ends = some b.ends) (e : Ends) :
    now.map Link.ends = some e
      ↔ (before.map Link.ends = some e ∧ deleted.map Link.ends ≠ some e)
        ∨ added.map Link.ends = some e := by
  cases h with
  | absent last => simp
  | fresh l => simp
  | gone b l =>
    have hends : l.ends = b.ends := by simpa using hlast b rfl
    simp [hends]
  | kept b l =>
    have hends : l.ends = b.ends := by simpa using hlast b rfl
    simp [hends]

/-- Where a heading always has the same ends, additions may as well come before deletions. -/
theorem Tracks.ends_now_iff_of_same {before last now added deleted : Option Link}
    (h : Tracks before last now added deleted)
    (hsame : ∀ b l, before = some b → last = some l → l.ends = b.ends) (e : Ends) :
    now.map Link.ends = some e
      ↔ (before.map Link.ends = some e ∨ added.map Link.ends = some e)
        ∧ deleted.map Link.ends ≠ some e := by
  cases h with
  | absent last => simp
  | fresh l => simp
  | gone b l => simp [hsame b l rfl rfl]
  | kept b l => simp [hsame b l rfl rfl]

/-- Where ends that were shown are replayed, they are the ends of the link shown last. -/
theorem Tracks.ends_last_of_replay {before last now added deleted : Option Link}
    (h : Tracks before last now added deleted) {e : Ends} (hbefore : before.map Link.ends = some e)
    (hreplay : now.map Link.ends = some e
      ↔ (before.map Link.ends = some e ∧ deleted.map Link.ends ≠ some e)
        ∨ added.map Link.ends = some e) :
    last.map Link.ends = some e := by
  cases h with
  | absent last => simp at hbefore
  | fresh l => simp at hbefore
  | gone b l => simpa [hbefore] using hreplay
  | kept b l => simpa [hbefore] using hreplay

/-- The link that is logged as deleted is the one that was shown last. -/
theorem Tracks.last_of_deleted {before last now added : Option Link} {l : Link}
    (h : Tracks before last now added (some l)) : last = some l := by
  cases h
  rfl

/-- What is known of every heading is kept up by a turn. -/
theorem tracks_turn {before last : Heading → Option Link} {r r' : Roster Link.heading}
    {c c' : ChangeLog} (hturn : Turn r c r' c')
    (h : ∀ heading, Tracks (before heading) (last heading) (r.find? heading)
      (c.added.find? heading) (c.deleted.find? heading)) (heading : Heading) :
    Tracks (before heading) ((r'.find? heading).or (last heading)) (r'.find? heading)
      (c'.added.find? heading) (c'.deleted.find? heading) := by
  have hheading := h heading
  cases hturn with
  | still => exact hheading.still
  | enters l hnew =>
    by_cases hl : l.heading = heading
    · subst hl
      rw [hnew] at hheading
      rw [Roster.find?_put_self]
      exact hheading.enters
    · obtain ⟨hadded, hdeleted⟩ := ChangeLog.find?_put_of_ne (c := c) hl
      rw [Roster.find?_put_of_ne r hl, hadded, hdeleted]
      exact hheading.still
  | leaves l hshown =>
    by_cases hl : l.heading = heading
    · subst hl
      rw [hshown] at hheading
      rw [Roster.find?_erase_self, Option.none_or]
      exact hheading.leaves
    · obtain ⟨hadded, hdeleted⟩ := ChangeLog.find?_remove_of_ne (c := c) hl
      rw [Roster.find?_erase, if_neg (Ne.symm hl), hadded, hdeleted]
      exact hheading.still

namespace Watch

/-- The last link of a heading that a view shows, from a state on and while operations are done. -/
def lastShown? (view : LinkView) (heading : Heading) (w : Watch) : List StoreOp → Option Link
  | [] => (w.overview.roster view).find? heading
  | op :: ops =>
    (lastShown? view heading (w.act op) ops).or ((w.overview.roster view).find? heading)

theorem lastShown?_concat (view : LinkView) (heading : Heading) (w : Watch) (ops : List StoreOp)
    (op : StoreOp) :
    lastShown? view heading w (ops ++ [op])
      = (((w.actAll (ops ++ [op])).overview.roster view).find? heading).or
          (lastShown? view heading w ops) := by
  induction ops generalizing w with
  | nil => rfl
  | cons first ops ih =>
    simp only [List.cons_append, lastShown?, ih (w.act first), Option.or_assoc]
    rfl

/-- The log of a period, heading by heading. -/
theorem tracks_actAll {w : Watch} (h : w.Faithful) (view : LinkView) (ops : List StoreOp)
    (hempty : w.overview.changesOf view = .empty)
    (hplain : ∀ done, done <+: ops → (w.actAll done).topology.NoParallels) (heading : Heading) :
    (w.actAll ops).Faithful
      ∧ Tracks ((w.overview.roster view).find? heading) (lastShown? view heading w ops)
          (((w.actAll ops).overview.roster view).find? heading)
          (((w.actAll ops).overview.changesOf view).added.find? heading)
          (((w.actAll ops).overview.changesOf view).deleted.find? heading) := by
  induction ops using List.reverseRecOn generalizing heading with
  | nil =>
    refine ⟨h, ?_⟩
    simp only [actAll, List.foldl_nil, lastShown?, hempty]
    exact .begin _
  | append_singleton ops op ih =>
    have hearlier : ∀ done, done <+: ops → (w.actAll done).topology.NoParallels :=
      fun done hdone => hplain done (hdone.trans (List.prefix_append ops [op]))
    have hbefore := hearlier ops List.prefix_rfl
    have hafter := hplain _ List.prefix_rfl
    have hfaithful := (ih hearlier heading).1
    rw [lastShown?_concat]
    rw [actAll_concat] at hafter ⊢
    refine ⟨hfaithful.act op hbefore hafter, ?_⟩
    exact tracks_turn (hfaithful.turn_act op hbefore hafter view)
      (fun heading => (ih hearlier heading).2) heading

end Watch

/-- The ends of the links among elements. -/
def endsOf (elements : List Json) : List Ends :=
  elements.filterMap fun e => (LinkEntry.read? e).map LinkEntry.ends

theorem endsOf_toJson (entries : List LinkEntry) :
    endsOf (entries.map LinkEntry.toJson) = entries.map LinkEntry.ends := by
  simp [endsOf, List.filterMap_map, LinkEntry.read?_toJson]

/-- Whoever holds `held` and applies the updates holds `now`, links told apart by `identity`. -/
def EdgeUpdates.Replays {β : Type} (u : EdgeUpdates) (identity : Ends → β) (held now : List Ends) :
    Prop :=
  ∀ b, b ∈ now.map identity ↔
    (b ∈ held.map identity ∧ b ∉ (endsOf u.deleted).map identity)
      ∨ b ∈ (endsOf u.added).map identity

namespace Overview

/-- The ends of the links in a view. -/
def shownEnds (o : Overview) (view : LinkView) : List Ends :=
  (o.readLinks view).1.map LinkEntry.ends

theorem ends_renderLinks (view : LinkView) (links : List Link) :
    (renderLinks view links).map LinkEntry.ends
      = (links.mergeSort fun a b => (compare a.ends b.ends).isLE).map Link.ends := by
  unfold renderLinks
  rw [List.map_map]
  refine List.map_congr_left fun l _ => ?_
  cases view <;> rfl

/-- Ends are in a rendering exactly where their heading has a link with these ends. -/
theorem mem_ends_renderLinks {view : LinkView} {r : Roster Link.heading} {e : Ends} :
    e ∈ (renderLinks view r.items).map LinkEntry.ends
      ↔ (r.find? e.heading).map Link.ends = some e := by
  rw [ends_renderLinks, List.mem_map, Option.map_eq_some_iff]
  refine exists_congr fun l => ?_
  rw [List.mem_mergeSort, Roster.mem_items_iff]
  constructor
  · intro ⟨hfind, hends⟩
    exact ⟨hends ▸ hfind, hends⟩
  · intro ⟨hfind, hends⟩
    exact ⟨(hends ▸ hfind : r.find? l.ends.heading = some l), hends⟩

theorem mem_headings_renderLinks {view : LinkView} {r : Roster Link.heading} {heading : Heading} :
    heading ∈ ((renderLinks view r.items).map LinkEntry.ends).map Ends.heading
      ↔ (r.find? heading).isSome := by
  rw [ends_renderLinks, List.map_map]
  have hcontains := Roster.contains_iff (r := r) (k := heading)
  rw [Roster.contains] at hcontains
  rw [hcontains]
  simp only [List.mem_map, List.mem_mergeSort]
  rfl

variable (o : Overview) (view : LinkView)

theorem shownEnds_eq :
    o.shownEnds view = (renderLinks view (o.roster view).items).map LinkEntry.ends := by
  rw [shownEnds, readLinks, linksOf_eq]

theorem endsOf_added : endsOf (o.takeEdgeUpdates view).1.added
    = (renderLinks view (o.changesOf view).added.items).map LinkEntry.ends :=
  endsOf_toJson _

theorem endsOf_deleted : endsOf (o.takeEdgeUpdates view).1.deleted
    = (renderLinks view (o.changesOf view).deleted.items).map LinkEntry.ends :=
  endsOf_toJson _

theorem roster_look (l : Look) : (o.look l).roster view = o.roster view := by
  rw [look_eq]
  cases view <;> rfl

theorem changesOf_look (l : Look) : (o.look l).changesOf view = .empty := by
  rw [look_eq]
  cases view <;> rfl

end Overview

namespace Watch

/-- What the updates hold of each heading when a look is followed by operations alone. -/
theorem tracks_run {before : List WatchStep} {l : Look} {ops : List StoreOp} (view : LinkView)
    (hplain : ∀ done, done <+: before ++ .look l :: ops.map .act →
      (run {} done).topology.NoParallels) (heading : Heading) :
    Tracks (((run {} before).overview.roster view).find? heading)
      (lastShown? view heading (run {} (before ++ [.look l])) ops)
      (((run {} (before ++ .look l :: ops.map .act)).overview.roster view).find? heading)
      (((run {} (before ++ .look l :: ops.map .act)).overview.changesOf view).added.find? heading)
      (((run {} (before ++ .look l :: ops.map .act)).overview.changesOf view).deleted.find?
        heading) := by
  rw [run_append_look, run_concat, ← Overview.roster_look _ view l]
  have hfaithful : ((run {} before).look l).Faithful := by
    refine (faithful_run before fun done hdone => hplain done ?_).look l
    exact hdone.trans (List.prefix_append before _)
  have hsince : ∀ done, done <+: ops →
      (((run {} before).look l).actAll done).topology.NoParallels := by
    intro done hdone
    rw [← run_append_look]
    refine hplain _ ((List.prefix_append_right_inj before).2 ?_)
    exact List.cons_prefix_cons.2 ⟨rfl, hdone.map WatchStep.act⟩
  exact (tracks_actAll hfaithful view ops (Overview.changesOf_look _ view l) hsince heading).2

/-- Headings are always replayed, and links are replayed exactly where each link that was held has
the ends of the link that the view showed last for its heading. -/
theorem edgeUpdates_replay (before : List WatchStep) (l : Look) (ops : List StoreOp)
    (view : LinkView)
    (hplain : ∀ done, done <+: before ++ .look l :: ops.map .act →
      (run {} done).topology.NoParallels) :
    let held := (run {} before).overview.shownEnds view
    let present := run {} (before ++ .look l :: ops.map .act)
    let updates := (present.overview.takeEdgeUpdates view).1
    updates.Replays Ends.heading held (present.overview.shownEnds view)
      ∧ (updates.Replays id held (present.overview.shownEnds view)
          ↔ ∀ e ∈ held,
              (lastShown? view e.heading (run {} (before ++ [.look l])) ops).map Link.ends
                = some e) := by
  have htracks := tracks_run view hplain
  generalize run {} (before ++ .look l :: ops.map .act) = present at htracks
  intro held present updates
  constructor
  · intro heading
    simp only [held, updates, Overview.shownEnds_eq, Overview.endsOf_added,
      Overview.endsOf_deleted, Overview.mem_headings_renderLinks]
    exact (htracks heading).isSome_now_iff
  · simp only [EdgeUpdates.Replays, List.map_id, held, updates, Overview.shownEnds_eq,
      Overview.endsOf_added, Overview.endsOf_deleted, Overview.mem_ends_renderLinks]
    constructor
    · intro hreplay e he
      exact (htracks e.heading).ends_last_of_replay he (hreplay e)
    · intro hlast e
      refine (htracks e.heading).ends_now_iff (fun b hb => ?_) e
      have hheading : b.heading = e.heading := Roster.key_of_find? hb
      rw [← hheading] at hb ⊢
      exact hlast b.ends (congrArg (Option.map Link.ends) hb)

/-- Two devices and a link between them. -/
def linkedOnce : List WatchStep :=
  [.act (.connect (.switch ⟨"of:1"⟩)), .act (.connect (.switch ⟨"of:2"⟩)),
   .act (.detect (.direct ⟨⟨⟨"of:1"⟩, 1⟩, ⟨⟨"of:2"⟩, 1⟩⟩))]

/-- The link goes and comes back between two other ports. -/
def relinkedElsewhere : List StoreOp :=
  [.lose ⟨⟨⟨"of:1"⟩, 1⟩, ⟨⟨"of:2"⟩, 1⟩⟩, .detect (.direct ⟨⟨⟨"of:1"⟩, 2⟩, ⟨⟨"of:2"⟩, 2⟩⟩)]

theorem noParallels_relinkedElsewhere :
    ∀ done, done <+: linkedOnce ++ .look (.links .summary) :: relinkedElsewhere.map .act →
      (run {} done).topology.NoParallels := by
  simp only [← List.mem_inits]
  decide +kernel

/-- The link goes, comes back between two other ports, and is put back where it was. -/
def relinkedAndBack : List StoreOp :=
  relinkedElsewhere
    ++ [.lose ⟨⟨⟨"of:1"⟩, 2⟩, ⟨⟨"of:2"⟩, 2⟩⟩, .detect (.direct ⟨⟨⟨"of:1"⟩, 1⟩, ⟨⟨"of:2"⟩, 1⟩⟩)]

theorem noParallels_relinkedAndBack :
    ∀ done, done <+: linkedOnce ++ .look (.links .summary) :: relinkedAndBack.map .act →
      (run {} done).topology.NoParallels := by
  simp only [← List.mem_inits]
  decide +kernel

/-- A link that comes back between two other ports is not replayed: the updates are empty. -/
theorem edgeUpdates_not_replayed :
    ¬ ∀ (before : List WatchStep) (l : Look) (ops : List StoreOp) (view : LinkView),
      (∀ done, done <+: before ++ .look l :: ops.map .act → (run {} done).topology.NoParallels) →
      ((run {} (before ++ .look l :: ops.map .act)).overview.takeEdgeUpdates view).1.Replays id
        ((run {} before).overview.shownEnds view)
        ((run {} (before ++ .look l :: ops.map .act)).overview.shownEnds view) := by
  intro h
  have hreplay := h linkedOnce (.links .summary) relinkedElsewhere .summary
    noParallels_relinkedElsewhere ⟨⟨⟨"of:1"⟩, 2⟩, ⟨⟨"of:2"⟩, 2⟩⟩
  revert hreplay
  simp only [List.map_id, Overview.shownEnds_eq, Overview.endsOf_added,
    Overview.endsOf_deleted, Overview.mem_ends_renderLinks]
  decide +kernel

theorem edgeUpdates_replay_relinkedAndBack :
    let present := run {} (linkedOnce ++ .look (.links .summary) :: relinkedAndBack.map .act)
    (present.overview.takeEdgeUpdates .summary).1.Replays id
      ((run {} linkedOnce).overview.shownEnds .summary) (present.overview.shownEnds .summary) := by
  refine (edgeUpdates_replay linkedOnce (.links .summary) relinkedAndBack .summary
    noParallels_relinkedAndBack).2.2 ?_
  intro e he
  have hone : (run {} linkedOnce).overview.shownEnds .summary
      = [⟨⟨⟨"of:1"⟩, 1⟩, ⟨⟨"of:2"⟩, 1⟩⟩] := by decide +kernel
  rw [hone, List.mem_singleton] at he
  subst he
  decide +kernel

end Watch

end Multidomain
