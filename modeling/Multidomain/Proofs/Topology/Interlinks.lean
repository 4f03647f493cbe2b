import Multidomain.Proofs.Topology.Devices

/-!
# Links that lead out, and links that led out once

An overview decides whether a link leads out when the link is added, and keeps to that as long as the
link is there. Devices that become known later do not change it. So the links in its view of those that
lead out are the links that led out at some moment since when they have not gone
(`interlinks_shown_iff`): all that lead out now, and those whose missing device has turned up.
-/

namespace Multidomain

namespace Overview

/-- One of the ends is at a device that is not known. -/
def Abroad (o : Overview) (e : Ends) : Prop :=
  o.knows e.src.device = false ∨ o.knows e.dst.device = false

instance (o : Overview) (e : Ends) : Decidable (o.Abroad e) :=
  inferInstanceAs (Decidable (_ ∨ _))

variable {o : Overview} {l k : Link}

theorem leadsOut_iff : o.leadsOut l = true ↔ o.Abroad l.ends := by
  simp [leadsOut, Abroad, Link.src, Link.dst]

theorem knows_putLink (device : DeviceId) : (o.putLink l).knows device = o.knows device := by
  unfold putLink
  split <;> rfl

theorem abroad_putLink {e : Ends} : (o.putLink l).Abroad e ↔ o.Abroad e := by
  simp only [Abroad, knows_putLink]

theorem mem_interlinks_putLink_iff :
    k ∈ (o.putLink l).interlinks.items
      ↔ (k = l ∧ o.Abroad l.ends)
        ∨ (k ∈ o.interlinks.items ∧ (o.Abroad l.ends → l.heading ≠ k.heading)) := by
  unfold putLink
  split
  · next hout =>
    have habroad := leadsOut_iff.1 hout
    simp only [Roster.mem_put, habroad, and_true, true_implies]
  · next hin =>
    have hhome : ¬ o.Abroad l.ends := fun habroad => hin (leadsOut_iff.2 habroad)
    simp [hhome]

theorem mem_interlinks_removeLink_iff :
    k ∈ (o.removeLink l).interlinks.items
      ↔ k ∈ o.interlinks.items ∧ k.heading ≠ l.heading := by
  refine ⟨mem_interlinks_removeLink, fun h => ?_⟩
  unfold removeLink
  split
  · exact Roster.mem_erase.2 h
  · exact h.1

/-- A link is in a view by its ends where it is in the roster of the view. -/
theorem mem_readLinks_iff {view : LinkView} (hview : view ≠ .explicit) {entry : LinkEntry} :
    entry ∈ (o.readLinks view).1 ↔ ∃ l ∈ (o.roster view).items, entry = .summary l := by
  rw [readLinks, linksOf_eq, renderLinks]
  simp only [List.mem_map, List.mem_mergeSort]
  cases view with
  | explicit => exact absurd rfl hview
  | summary | implicit => simp only [eq_comm]

end Overview

namespace Watch

variable {w : Watch} {steps : List WatchStep} {s : WatchStep} {e : Ends}

/-- There was a moment when one of the ends was at a device that was not known, and since then the link
has always been there. -/
def WasAbroad (steps : List WatchStep) (e : Ends) : Prop :=
  ∃ before rest, steps = before ++ rest ∧ (run {} before).overview.Abroad e
    ∧ ∀ mid, mid <+: rest → (run {} (before ++ mid)).topology.links.contains e = true

theorem WasAbroad.held (h : WasAbroad steps e) :
    (run {} steps).topology.links.contains e = true := by
  obtain ⟨before, rest, rfl, -, hheld⟩ := h
  exact hheld rest List.prefix_rfl

theorem wasAbroad_of_abroad (hheld : (run {} steps).topology.links.contains e = true)
    (habroad : (run {} steps).overview.Abroad e) : WasAbroad steps e := by
  refine ⟨steps, [], (List.append_nil steps).symm, habroad, fun mid hmid => ?_⟩
  rw [List.prefix_nil.1 hmid, List.append_nil]
  exact hheld

theorem wasAbroad_concat :
    WasAbroad (steps ++ [s]) e
      ↔ (run {} (steps ++ [s])).topology.links.contains e = true
        ∧ (WasAbroad steps e ∨ (run {} (steps ++ [s])).overview.Abroad e) := by
  constructor
  · intro h
    refine ⟨h.held, ?_⟩
    obtain ⟨before, rest, hsplit, habroad, hheld⟩ := h
    obtain rfl | ⟨rest, last, rfl⟩ := List.eq_nil_or_concat' rest
    · rw [List.append_nil] at hsplit
      exact .inr (hsplit ▸ habroad)
    · rw [← List.append_assoc] at hsplit
      obtain ⟨rfl, -⟩ := List.append_inj' hsplit rfl
      exact .inl ⟨before, rest, rfl, habroad,
        fun mid hmid => hheld mid (hmid.trans (List.prefix_append rest [last]))⟩
  · rintro ⟨hnow, ⟨before, rest, rfl, habroad, hheld⟩ | habroad⟩
    · refine ⟨before, rest ++ [s], List.append_assoc .., habroad, fun mid hmid => ?_⟩
      obtain rfl | hmid := List.prefix_concat_iff.1 hmid
      · rwa [List.append_assoc] at hnow
      · exact hheld mid hmid
    · exact wasAbroad_of_abroad hnow habroad

/-- What is abroad after a step was so before, since devices stay known. -/
theorem abroad_of_concat (h : (run {} (steps ++ [s])).overview.Abroad e) :
    (run {} steps).overview.Abroad e := by
  have hkept : ∀ device, (run {} (steps ++ [s])).overview.knows device = false →
      (run {} steps).overview.knows device = false := by
    intro device hunknown
    rw [Overview.knows, devices_run] at hunknown ⊢
    by_contra hknown
    rw [Bool.not_eq_false] at hknown
    rw [run_concat] at hunknown
    have hstill : ((run {} steps).step s).topology.knows device = true := by
      cases s with
      | act op => exact (Topology.deviceEffect_act _ op).knows hknown
      | look l => exact hknown
    exact Bool.false_ne_true (hunknown.symm.trans hstill)
  exact h.imp (hkept _) (hkept _)

/-- No link has the ends of one that an operation adds. -/
theorem find?_eq_none_of_new {t : Topology} {op : StoreOp} {l : Link}
    (hl : l ∈ (t.act op).1.links.items) (hnew : l ∉ t.links.items) :
    t.links.find? l.ends = none := by
  have heffect := Topology.linkEffect_act t op
  generalize (t.act op).1 = t' at *
  generalize (t.act op).2 = events at *
  cases heffect with
  | none hlinks => exact absurd (hlinks ▸ hl) hnew
  | added k hunheld hlinks =>
    obtain rfl | ⟨hold, -⟩ := Roster.mem_put.1 (hlinks ▸ hl)
    · exact hunheld
    · exact absurd hold hnew
  | removed k hheld hlinks => exact absurd (Roster.mem_erase.1 (hlinks ▸ hl)).1 hnew

/-- Of the links that are there after an operation those are kept as leading out that were so before,
and a new one that leads out. -/
theorem Faithful.mem_interlinks_act (h : w.Faithful) (op : StoreOp)
    (hplain : w.topology.NoParallels) (hplain' : (w.act op).topology.NoParallels) {l : Link}
    (hl : l ∈ (w.act op).topology.links.items) :
    l ∈ (w.act op).overview.interlinks.items
      ↔ l ∈ w.overview.interlinks.items
        ∨ (l ∉ w.topology.links.items ∧ (w.act op).overview.Abroad l.ends) := by
  have heffect := Topology.linkEffect_act w.topology op
  unfold Watch.act at hplain' hl ⊢
  generalize (w.topology.act op).1 = t' at *
  generalize (w.topology.act op).2 = events at *
  cases heffect with
  | none hlinks hquiet =>
    have hold : l ∈ w.topology.links.items := hlinks ▸ hl
    simp only [(hquiet w.overview).interlinks, hold, not_true_eq_false, false_and, or_false]
  | added k hnew hlinks =>
    have hfresh : ∀ k' ∈ w.topology.links.items, k'.heading ≠ k.heading :=
      fun k' hk' => hplain'.heading_new hlinks hnew hk'
    have hnot : k ∉ w.topology.links.items := fun hk => hfresh k hk rfl
    change l ∈ (w.overview.putLink k).interlinks.items
      ↔ _ ∨ _ ∧ (w.overview.putLink k).Abroad l.ends
    rw [Overview.mem_interlinks_putLink_iff, Overview.abroad_putLink]
    obtain rfl | ⟨hold, -⟩ := Roster.mem_put.1 (hlinks ▸ hl)
    · have hnotInter : l ∉ w.overview.interlinks.items := fun hinter => hnot (h.interlinks l hinter)
      simp [hnot, hnotInter]
    · have hne : l ≠ k := fun hlk => hnot (hlk ▸ hold)
      have hheading : k.heading ≠ l.heading := (hfresh l hold).symm
      simp [hold, hne, hheading]
  | removed k hheld hlinks =>
    obtain ⟨hold, hends⟩ := Roster.mem_erase.1 (hlinks ▸ hl)
    have hheading : l.heading ≠ k.heading :=
      (hplain.heading_ne_iff (Roster.mem_of_find? hheld) hold).2 hends
    change l ∈ (w.overview.removeLink k).interlinks.items ↔ _
    rw [Overview.mem_interlinks_removeLink_iff]
    simp [hold, hheading]

/-- The links that are kept as leading out are those that were abroad once and have stayed. -/
theorem mem_interlinks_iff
    (hplain : ∀ done, done <+: steps → (run {} done).topology.NoParallels) (l : Link) :
    l ∈ (run {} steps).overview.interlinks.items
      ↔ l ∈ (run {} steps).topology.links.items ∧ WasAbroad steps l.ends := by
  induction steps using List.reverseRecOn with
  | nil => exact ⟨fun h => (nomatch h), fun h => (nomatch h.1)⟩
  | append_singleton steps s ih =>
    have hearlier : ∀ done, done <+: steps → (run {} done).topology.NoParallels :=
      fun done h => hplain done (h.trans (List.prefix_append steps [s]))
    have hfaithful := faithful_run steps hearlier
    have hfaithful' := faithful_run (steps ++ [s]) hplain
    have hstep : l ∈ (run {} (steps ++ [s])).topology.links.items →
        (l ∈ (run {} (steps ++ [s])).overview.interlinks.items
          ↔ l ∈ (run {} steps).overview.interlinks.items
            ∨ (l ∉ (run {} steps).topology.links.items
              ∧ (run {} (steps ++ [s])).overview.Abroad l.ends)) := by
      have hlast := hplain _ List.prefix_rfl
      rw [run_concat] at hlast ⊢
      cases s with
      | act op => exact hfaithful.mem_interlinks_act op (hearlier _ List.prefix_rfl) hlast
      | look look =>
        intro hl
        have hold : l ∈ (run {} steps).topology.links.items := hl
        change l ∈ ((run {} steps).overview.look look).interlinks.items ↔ _
        rw [Overview.look_eq]
        simp [hold, Overview.clearChanges]
    rw [wasAbroad_concat]
    constructor
    · intro hinter
      have hl := hfaithful'.interlinks l hinter
      refine ⟨hl, Roster.contains_iff.2 (List.mem_map_of_mem hl), ?_⟩
      obtain hold | ⟨-, habroad⟩ := (hstep hl).1 hinter
      · exact .inl ((ih hearlier).1 hold).2
      · exact .inr habroad
    · rintro ⟨hl, -, hled⟩
      rw [hstep hl]
      by_cases hold : l ∈ (run {} steps).topology.links.items
      · refine .inl ((ih hearlier).2 ⟨hold, hled.elim id fun habroad => ?_⟩)
        exact wasAbroad_of_abroad (Roster.contains_iff.2 (List.mem_map_of_mem hold))
          (abroad_of_concat habroad)
      · refine .inr ⟨hold, hled.resolve_left fun hearlierLed => ?_⟩
        -- a link that is new has the ends of none that was there
        rw [run_concat] at hl
        cases s with
        | act op =>
          have hgone := find?_eq_none_of_new hl hold
          have hheld := hearlierLed.held
          rw [Roster.contains, hgone] at hheld
          exact Bool.false_ne_true hheld
        | look look => exact hold hl

/-- **Which links are shown as leading out.** When no two links of one heading are ever held at once, the
view of the links that lead out shows just those of the shown links that led out at some moment since
when they have not gone. All that lead out now are among them. So it shows these and no others exactly
when no link that led out then has both its devices known by now. -/
theorem interlinks_shown_iff (steps : List WatchStep)
    (hplain : ∀ done, done <+: steps → (run {} done).topology.NoParallels) :
    let o := (run {} steps).overview
    let all := (o.readLinks .summary).1
    let leading := (o.readLinks .implicit).1
    (∀ entry, entry ∈ leading ↔ entry ∈ all ∧ WasAbroad steps entry.ends)
      ∧ (∀ entry ∈ all, o.Abroad entry.ends → WasAbroad steps entry.ends)
      ∧ ((∀ entry, entry ∈ leading ↔ entry ∈ all ∧ o.Abroad entry.ends)
        ↔ ∀ entry ∈ all, WasAbroad steps entry.ends → o.Abroad entry.ends) := by
  intro o all leading
  have hheld : ∀ l, l ∈ o.links.items ↔ l ∈ (run {} steps).topology.links.items :=
    (faithful_run steps hplain).links
  have hall : ∀ entry, entry ∈ all ↔ ∃ l ∈ o.links.items, entry = .summary l :=
    fun entry => Overview.mem_readLinks_iff (by decide)
  have hleading : ∀ entry, entry ∈ leading ↔ entry ∈ all ∧ WasAbroad steps entry.ends := by
    intro entry
    rw [Overview.mem_readLinks_iff (by decide), hall]
    constructor
    · rintro ⟨l, hl, rfl⟩
      obtain ⟨hthere, hled⟩ := (mem_interlinks_iff hplain l).1 hl
      exact ⟨⟨l, (hheld l).2 hthere, rfl⟩, hled⟩
    · rintro ⟨⟨l, hl, rfl⟩, hled⟩
      exact ⟨l, (mem_interlinks_iff hplain l).2 ⟨(hheld l).1 hl, hled⟩, rfl⟩
  have hsince : ∀ entry ∈ all, o.Abroad entry.ends → WasAbroad steps entry.ends := by
    intro entry hentry habroad
    obtain ⟨l, hl, rfl⟩ := (hall entry).1 hentry
    exact wasAbroad_of_abroad (Roster.contains_iff.2 (List.mem_map_of_mem ((hheld l).1 hl))) habroad
  refine ⟨hleading, hsince, fun h entry hentry hled => ?_, fun h entry => ?_⟩
  · exact ((h entry).1 ((hleading entry).2 ⟨hentry, hled⟩)).2
  · rw [hleading]
    exact and_congr_right fun hentry => ⟨h entry hentry, hsince entry hentry⟩

/-- A link leads out to a device that becomes known later. -/
def metLater : List WatchStep :=
  [.act (.connect (.switch ⟨"of:1"⟩)), .act (.detect (.direct ⟨⟨⟨"of:1"⟩, 1⟩, ⟨⟨"of:2"⟩, 1⟩⟩)),
   .act (.connect (.switch ⟨"of:2"⟩))]

theorem noParallels_metLater :
    ∀ done, done <+: metLater → (run {} done).topology.NoParallels := by
  simp only [← List.mem_inits]
  decide +kernel

/-- The link was abroad before the device became known, so it is shown among those that lead out. -/
theorem interlinks_shown_metLater :
    LinkEntry.summary (.direct ⟨⟨⟨"of:1"⟩, 1⟩, ⟨⟨"of:2"⟩, 1⟩⟩)
      ∈ ((run {} metLater).overview.readLinks .implicit).1 := by
  refine ((interlinks_shown_iff metLater noParallels_metLater).1 _).2 ⟨by decide +kernel, ?_⟩
  refine ⟨metLater.take 2, metLater.drop 2, rfl, by decide +kernel, ?_⟩
  simp only [← List.mem_inits]
  decide +kernel

/-- A link need not lead out to be shown among those that do. -/
theorem interlink_shown_between_known_devices :
    ¬ ∀ steps : List WatchStep,
      (∀ done, done <+: steps → (run {} done).topology.NoParallels) →
      ∀ entry, entry ∈ ((run {} steps).overview.readLinks .implicit).1
        ↔ entry ∈ ((run {} steps).overview.readLinks .summary).1
          ∧ (run {} steps).overview.Abroad entry.ends := by
  intro h
  have hshown : ∀ entry ∈ ((run {} metLater).overview.readLinks .implicit).1,
      (run {} metLater).overview.Abroad entry.ends :=
    fun entry hentry => ((h metLater noParallels_metLater entry).1 hentry).2
  revert hshown
  decide +kernel

end Watch

end Multidomain
