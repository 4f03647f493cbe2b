import Multidomain.Proofs.Topology.Replay

/-!
# Edge updates as a difference

Between two looks a link may come and go any number of times, and a device may become known, so that a
link which led out comes back as one that does not. Whatever happens, the updates of a view come down
to the headings that are shown now and were not shown then, and to those that were shown then and are
not shown now. `Tracks` has worked this out heading by heading; here it is said of the whole.
-/

namespace Multidomain

theorem Tracks.isSome_added_iff {before last now added deleted : Option Link}
    (h : Tracks before last now added deleted) :
    added.isSome ↔ now.isSome ∧ ¬ before.isSome := by
  cases h <;> simp

theorem Tracks.isSome_deleted_iff {before last now added deleted : Option Link}
    (h : Tracks before last now added deleted) :
    deleted.isSome ↔ before.isSome ∧ ¬ now.isSome := by
  cases h <;> simp

/-- What is logged as added is the link that is shown now. -/
theorem Tracks.now_of_added {before last now deleted : Option Link} {l : Link}
    (h : Tracks before last now (some l) deleted) : now = some l := by
  cases h
  rfl

namespace Watch

/-- **Updates are the difference of two looks.** When a look is followed by operations alone, and no
two links of one heading are ever held at once, the headings added are those shown now and not then,
the headings deleted those shown then and not now, and each entry that is added has the ends of the
link shown now. -/
theorem edgeUpdates_difference (before : List WatchStep) (l : Look) (ops : List StoreOp)
    (view : LinkView)
    (hplain : ∀ done, done <+: before ++ .look l :: ops.map .act →
      (run {} done).topology.NoParallels) :
    let earlier := (run {} (before ++ [.look l])).overview.shownEnds view
    let present := run {} (before ++ .look l :: ops.map .act)
    let later := present.overview.shownEnds view
    let updates := (present.overview.takeEdgeUpdates view).1
    (∀ heading, heading ∈ (endsOf updates.added).map Ends.heading
        ↔ heading ∈ later.map Ends.heading ∧ heading ∉ earlier.map Ends.heading)
      ∧ (∀ heading, heading ∈ (endsOf updates.deleted).map Ends.heading
        ↔ heading ∈ earlier.map Ends.heading ∧ heading ∉ later.map Ends.heading)
      ∧ ∀ value ∈ updates.added, ∃ e ∈ later,
          (LinkEntry.read? value).map LinkEntry.ends = some e := by
  have htracks := tracks_run view hplain
  generalize run {} (before ++ .look l :: ops.map .act) = present at htracks
  intro earlier present later updates
  have hearlier : earlier = (run {} before).overview.shownEnds view := by
    simp only [earlier, Overview.shownEnds_eq, run_concat]
    exact congrArg (fun r : Roster Link.heading =>
      (Overview.renderLinks view r.items).map LinkEntry.ends) (Overview.roster_look _ view l)
  refine ⟨fun heading => ?_, fun heading => ?_, fun value hvalue => ?_⟩
  · simp only [hearlier, later, updates, Overview.shownEnds_eq, Overview.endsOf_added,
      Overview.mem_headings_renderLinks]
    exact (htracks heading).isSome_added_iff
  · simp only [hearlier, later, updates, Overview.shownEnds_eq, Overview.endsOf_deleted,
      Overview.mem_headings_renderLinks]
    exact (htracks heading).isSome_deleted_iff
  · obtain ⟨entry, hentry, rfl⟩ := List.mem_map.1 hvalue
    refine ⟨entry.ends, ?_, by rw [LinkEntry.read?_toJson, Option.map_some]⟩
    have hends : entry.ends ∈
        (Overview.renderLinks view (present.overview.changesOf view).added.items).map
          LinkEntry.ends := List.mem_map_of_mem hentry
    rw [Overview.mem_ends_renderLinks] at hends
    obtain ⟨k, hk, hkends⟩ := Option.map_eq_some_iff.1 hends
    have hnow := htracks entry.ends.heading
    rw [hk] at hnow
    simp only [later, Overview.shownEnds_eq, Overview.mem_ends_renderLinks]
    rw [hnow.now_of_added, Option.map_some, hkends]

/-- Two devices, a link between them, and one that leads out. -/
def linkedOut : List WatchStep :=
  linkedOnce ++ [.act (.detect (.direct ⟨⟨⟨"of:2"⟩, 3⟩, ⟨⟨"of:9"⟩, 1⟩⟩))]

/-- The device that the link leads to becomes known, and the link goes and comes back. -/
def becameKnown : List StoreOp :=
  [.connect (.switch ⟨"of:9"⟩), .lose ⟨⟨⟨"of:2"⟩, 3⟩, ⟨⟨"of:9"⟩, 1⟩⟩,
   .detect (.direct ⟨⟨⟨"of:2"⟩, 3⟩, ⟨⟨"of:9"⟩, 1⟩⟩)]

theorem noParallels_becameKnown :
    ∀ done, done <+: linkedOut ++ .look (.links .explicit) :: becameKnown.map .act →
      (run {} done).topology.NoParallels := by
  simp only [← List.mem_inits]
  decide +kernel

/-- The link does not lead out any more, so it is deleted from the view of those that do. -/
theorem edgeUpdates_difference_becameKnown :
    let present := run {} (linkedOut ++ .look (.links .explicit) :: becameKnown.map .act)
    let updates := (present.overview.takeEdgeUpdates .implicit).1
    ⟨⟨"of:2"⟩, ⟨"of:9"⟩⟩ ∈ (endsOf updates.deleted).map Ends.heading
      ∧ ⟨⟨"of:2"⟩, ⟨"of:9"⟩⟩ ∉ (endsOf updates.added).map Ends.heading := by
  intro present updates
  obtain ⟨hadded, hdeleted, -⟩ := edgeUpdates_difference linkedOut (.links .explicit) becameKnown
    .implicit noParallels_becameKnown
  have hearlier : ⟨⟨"of:2"⟩, ⟨"of:9"⟩⟩
      ∈ ((run {} (linkedOut ++ [.look (.links .explicit)])).overview.shownEnds .implicit).map
        Ends.heading := by decide +kernel
  have hlater : ⟨⟨"of:2"⟩, ⟨"of:9"⟩⟩
      ∉ (present.overview.shownEnds .implicit).map Ends.heading := by decide +kernel
  exact ⟨(hdeleted _).2 ⟨hearlier, hlater⟩, fun h => hlater ((hadded _).1 h).1⟩

end Watch

end Multidomain
