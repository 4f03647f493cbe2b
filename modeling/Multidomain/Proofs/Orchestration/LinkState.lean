import Multidomain.Proofs.Orchestration.Footing

/-!
# Links follow the reports

Whether a link leads from one virtual device to another can be told from the reports alone, without a
look at the book: there must be a heading between devices of the two of which the last report that was
not skipped was that it has come. This needs that devices do not change sides, that is, that whoever
reports a device reports it for the same virtual device. A flag of the book is then set exactly while
the last word on its heading is an addition, and every flag that is set is that of a heading which
carries the link.
-/

namespace Multidomain

namespace Implicit

/-- Whoever reports a device reports it for one and the same virtual device. -/
def Steady (reports : List Report) : Prop :=
  ∀ r ∈ reports, ∀ r' ∈ reports, ∀ device, r.device? = some device → r'.device? = some device →
    ChildAddress.virtualDevice r.child = ChildAddress.virtualDevice r'.child

theorem Steady.of_append {first second : List Report} (h : Steady (first ++ second)) :
    Steady first :=
  fun r hr r' hr' => h r (List.mem_append_left _ hr) r' (List.mem_append_left _ hr')

/-- Of the reports that concern the heading and are applied, the last reports the change. -/
def LastApplied (reports : List Report) (heading : Heading) (change : Change) : Prop :=
  ∃ before r rest, reports = before ++ r :: rest ∧ r.told? = some (heading, change)
    ∧ Applies (after before) r
    ∧ ∀ mid later rest', rest = mid ++ later :: rest' → ∀ change',
        later.told? = some (heading, change') → ¬ Applies (after (before ++ r :: mid)) later

theorem lastApplied_concat {reports : List Report} {r : Report} {heading : Heading}
    {change : Change} :
    LastApplied (reports ++ [r]) heading change ↔
      (r.told? = some (heading, change) ∧ Applies (after reports) r) ∨
      (LastApplied reports heading change ∧
        ∀ change', r.told? = some (heading, change') → ¬ Applies (after reports) r) := by
  constructor
  · rintro ⟨before, first, rest, hsplit, htold, happlies, hlast⟩
    obtain ⟨rest', rfl⟩ | ⟨rfl, rfl, rfl⟩ := concat_eq_split hsplit
    · obtain rfl : rest = rest' ++ [r] := by simpa using hsplit.symm
      refine .inr ⟨⟨before, first, rest', rfl, htold, happlies, ?_⟩, ?_⟩
      · intro mid later rest'' hmid
        exact hlast mid later (rest'' ++ [r]) (by simp [hmid])
      · exact hlast rest' r [] rfl
    · exact .inl ⟨htold, happlies⟩
  · rintro (⟨htold, happlies⟩ | ⟨⟨before, first, rest, rfl, htold, happlies, hlast⟩, hnone⟩)
    · exact ⟨reports, r, [], rfl, htold, happlies, by simp⟩
    · refine ⟨before, first, rest ++ [r], by simp, htold, happlies, ?_⟩
      intro mid later rest' hmid
      obtain ⟨rest'', rfl⟩ | ⟨rfl, rfl, -⟩ := concat_eq_split hmid
      · exact hlast mid later rest'' rfl
      · exact hnone

/-- What the book has to do with the reports that it comes from. -/
structure Follows (reports : List Report) (d : Domain) : Prop where
  coherent : Coherent d
  /-- A device belongs to the virtual device for which it was reported. -/
  reported : ∀ {device virtual}, d.registry.virtual? device = some virtual →
    ∃ r ∈ reports, r.device? = some device ∧ ChildAddress.virtualDevice r.child = virtual
  /-- A heading of which the last word is that it has come has its flag set, unless it stays inside a
  virtual device. -/
  flag_of_added : ∀ {heading}, LastApplied reports heading .added →
    ∃ a b, d.registry.virtual? heading.source = some a ∧ d.registry.virtual? heading.target = some b
      ∧ (a ≠ b → d.registry.links.flag? (.of a b) heading = some true)
  /-- A flag that is set is that of a heading which carries the link of the pair that it joins, and of
  which the last word is that it has come. -/
  added_of_flag : ∀ {pair heading}, d.registry.links.flag? pair heading = some true →
    Joins d heading pair ∧ Serves d heading pair ∧ LastApplied reports heading .added

theorem follows_empty : Follows [] .empty where
  coherent := coherent_empty
  reported h := nomatch (h : none = some _)
  flag_of_added := by
    rintro heading ⟨before, r, rest, hsplit, -⟩
    simp at hsplit
  added_of_flag h := nomatch (h : none = some _)

variable {reports : List Report} {d : Domain} {r : Report}

/-- In a steady history a device stays where it is. -/
theorem Follows.virtual?_hear (h : Follows reports d) (hsteady : Steady (reports ++ [r]))
    {device virtual : DeviceId} (hvirtual : d.registry.virtual? device = some virtual) :
    (d.hear .implicit r).registry.virtual? device = some virtual := by
  rw [h.coherent.virtual?_hear]
  split
  · next hdevice =>
    obtain ⟨earlier, hmem, hreported, rfl⟩ := h.reported hvirtual
    rw [hsteady r (by simp) earlier (by simp [hmem]) device hdevice hreported]
  · exact hvirtual

theorem Follows.joins_hear (h : Follows reports d) (hsteady : Steady (reports ++ [r]))
    {heading : Heading} {pair : DevicePair} (hjoins : Joins d heading pair) :
    Joins (d.hear .implicit r) heading pair := by
  obtain ⟨a, b, hsrc, hdst, hne, hpair⟩ := joins_iff.1 hjoins
  exact joins_iff.2
    ⟨a, b, h.virtual?_hear hsteady hsrc, h.virtual?_hear hsteady hdst, hne, hpair⟩

theorem Follows.hear (h : Follows reports (after reports)) (hsteady : Steady (reports ++ [r])) :
    Follows (reports ++ [r]) ((after reports).hear .implicit r) where
  coherent := coherent_hear h.coherent r
  reported := by
    intro device virtual hvirtual
    rw [h.coherent.virtual?_hear] at hvirtual
    split at hvirtual
    · next hdevice => exact ⟨r, by simp, hdevice, Option.some.inj hvirtual⟩
    · obtain ⟨earlier, hmem, hreported⟩ := h.reported hvirtual
      exact ⟨earlier, by simp [hmem], hreported⟩
  flag_of_added := by
    intro heading hlast
    obtain ⟨htold, happlies⟩ | ⟨hearlier, hnone⟩ := lastApplied_concat.1 hlast
    · obtain ⟨a, b, hsrc, hdst⟩ := (h.coherent.applies_added_iff htold).1 happlies
      refine ⟨a, b, h.virtual?_hear hsteady hsrc, h.virtual?_hear hsteady hdst, fun hne => ?_⟩
      have hjoins : Joins (after reports) heading (.of a b) := joins_iff.2 ⟨a, b, hsrc, hdst, hne, rfl⟩
      rw [h.coherent.flag?_hear, if_pos ⟨htold, hjoins⟩]
    · obtain ⟨a, b, hsrc, hdst, hflag⟩ := h.flag_of_added hearlier
      refine ⟨a, b, h.virtual?_hear hsteady hsrc, h.virtual?_hear hsteady hdst, fun hne => ?_⟩
      have hkept : ¬ (r.told? = some (heading, .removed) ∧ Serves (after reports) heading (.of a b)) :=
        fun hlost => hnone .removed hlost.1 (h.coherent.applies_removed hlost.1)
      rw [h.coherent.flag?_hear, if_neg hkept, hflag hne]
      split <;> rfl
  added_of_flag := by
    intro pair heading hflag
    rw [h.coherent.flag?_hear] at hflag
    rw [h.coherent.serves_hear]
    split at hflag
    · next hadds =>
      obtain ⟨htold, hjoins⟩ := hadds
      obtain ⟨a, b, hsrc, hdst, hne, rfl⟩ := joins_iff.1 hjoins
      have happlies := (h.coherent.applies_added_iff htold).2 ⟨a, b, hsrc, hdst⟩
      have hbridge := Registry.bridge?_eq_some.2 ⟨hsrc, hdst, hne⟩
      refine ⟨h.joins_hear hsteady hjoins, ?_, lastApplied_concat.2 (.inl ⟨htold, happlies⟩)⟩
      rw [if_pos ⟨htold, by rw [hbridge]; rfl⟩]
      exact hjoins
    · next hadds =>
      split at hflag
      · simp at hflag
      · next hlost =>
        obtain ⟨hjoins, hserves, hlast⟩ := h.added_of_flag hflag
        have hnone : ∀ change, r.told? ≠ some (heading, change) := by
          intro change htold
          cases change with
          | added => exact hadds ⟨htold, hjoins⟩
          | removed => exact hlost ⟨htold, hserves⟩
        refine ⟨h.joins_hear hsteady hjoins, ?_,
          lastApplied_concat.2 (.inr ⟨hlast, fun change htold => absurd htold (hnone change)⟩)⟩
        rw [if_neg fun hboth => hnone _ hboth.1]
        exact hserves

theorem follows_after (reports : List Report) (hsteady : Steady reports) :
    Follows reports (after reports) := by
  induction reports using List.reverseRecOn with
  | nil => exact follows_empty
  | append_singleton reports r ih =>
    have hearlier := ih hsteady.of_append
    rw [after, Domain.hearAll_concat]
    exact hearlier.hear hsteady

theorem Follows.exists_heading_iff (h : Follows reports d) {a b : DeviceId} (hne : a ≠ b) :
    (∃ l ∈ d.topology.links.items, l.heading = ⟨a, b⟩) ↔
      ∃ x y, ((d.registry.virtual? x = some a ∧ d.registry.virtual? y = some b) ∨
          (d.registry.virtual? x = some b ∧ d.registry.virtual? y = some a)) ∧
        LastApplied reports ⟨x, y⟩ .added := by
  rw [h.coherent.exists_heading_iff fun heading hflag => (h.added_of_flag hflag).2.1]
  constructor
  · rintro ⟨⟨x, y⟩, hflag⟩
    obtain ⟨hjoins, -, hlast⟩ := h.added_of_flag hflag
    obtain ⟨a', b', hx, hy, -, hpair⟩ := joins_iff.1 hjoins
    refine ⟨x, y, ?_, hlast⟩
    obtain ⟨rfl, rfl⟩ | ⟨rfl, rfl⟩ := DevicePair.of_eq_of_iff.1 hpair
    · exact .inl ⟨hx, hy⟩
    · exact .inr ⟨hx, hy⟩
  · rintro ⟨x, y, hsides, hlast⟩
    obtain ⟨a', b', hx, hy, hflag⟩ := h.flag_of_added hlast
    refine ⟨⟨x, y⟩, ?_⟩
    obtain ⟨ha, hb⟩ | ⟨hb, ha⟩ := hsides
    · obtain rfl := Option.some.inj (ha.symm.trans hx)
      obtain rfl := Option.some.inj (hb.symm.trans hy)
      exact hflag hne
    · obtain rfl := Option.some.inj (ha.symm.trans hy)
      obtain rfl := Option.some.inj (hb.symm.trans hx)
      rw [DevicePair.of_comm]
      exact hflag hne.symm

/-- **Links follow the reports.** If whoever reports a device reports it for one and the same virtual
device, then after every document, and after every element of a document, a link leads from one
virtual device to another exactly when there is a heading between a device of the one and a device of
the other, in either direction, of which the last report that was applied was that it has come. -/
theorem link_iff_last_applied_added (letters : List Letter) (hsteady : Steady (reportsOf letters))
    (a b : DeviceId) (hne : a ≠ b) :
    let linked (d : Domain) := ∃ l ∈ d.topology.links.items, l.heading = ⟨a, b⟩
    let standing (d : Domain) (reports : List Report) :=
      ∃ x y, ((d.registry.virtual? x = some a ∧ d.registry.virtual? y = some b) ∨
          (d.registry.virtual? x = some b ∧ d.registry.virtual? y = some a)) ∧
        LastApplied reports ⟨x, y⟩ .added
    (linked (Domain.afterLetters .implicit letters)
        ↔ standing (Domain.afterLetters .implicit letters) (reportsOf letters)) ∧
      ∀ reports rest, reportsOf letters = reports ++ rest →
        (linked (after reports) ↔ standing (after reports) reports) := by
  intro linked standing
  have hall : ∀ reports, Steady reports → (linked (after reports) ↔ standing (after reports) reports) :=
    fun reports hsteady => (follows_after reports hsteady).exists_heading_iff hne
  refine ⟨?_, fun reports rest hsplit => hall reports ?_⟩
  · rw [Domain.afterLetters_eq_hearAll]
    exact hall (reportsOf letters) hsteady
  · rw [hsplit] at hsteady
    exact hsteady.of_append

instance (reports : List Report) : Decidable (Steady reports) :=
  decidable_of_iff (∀ r ∈ reports, ∀ r' ∈ reports, r.device?.isSome = true → r.device? = r'.device? →
      ChildAddress.virtualDevice r.child = ChildAddress.virtualDevice r'.child)
    ⟨fun h r hr r' hr' device hdevice hdevice' =>
        h r hr r' hr' (by rw [hdevice]; rfl) (hdevice.trans hdevice'.symm),
      fun h r hr r' hr' hsome hsame => by
        obtain ⟨device, hdevice⟩ := Option.isSome_iff_exists.1 hsome
        exact h r hr r' hr' device hdevice (hsame ▸ hdevice)⟩

open ChildAddress (virtualDevice)

/-- A link that each of two children reports in its own direction, and one of them reports lost. -/
def lostOnOneSide : List Letter :=
  [⟨"a", .devices [sentDevice "of:1"]⟩, ⟨"b", .devices [sentDevice "of:2"]⟩,
   ⟨"a", .links [sentLink "of:1" 1 "of:2" 1]⟩, ⟨"b", .links [sentLink "of:2" 1 "of:1" 1]⟩,
   ⟨"a", .edgeUpdates ⟨[], [sentLink "of:1" 1 "of:2" 1]⟩⟩]

theorem link_iff_last_applied_added_lostOnOneSide :
    let d := Domain.afterLetters .implicit lostOnOneSide
    Steady (reportsOf lostOnOneSide) ∧ virtualDevice "a" ≠ virtualDevice "b" ∧
      (∃ l ∈ d.topology.links.items, l.heading = ⟨virtualDevice "a", virtualDevice "b"⟩) ∧
      ∃ x y, ((d.registry.virtual? x = some (virtualDevice "a")
            ∧ d.registry.virtual? y = some (virtualDevice "b")) ∨
          (d.registry.virtual? x = some (virtualDevice "b")
            ∧ d.registry.virtual? y = some (virtualDevice "a"))) ∧
        LastApplied (reportsOf lostOnOneSide) ⟨x, y⟩ .added := by
  have hsteady : Steady (reportsOf lostOnOneSide) := by decide +kernel
  have hne : virtualDevice "a" ≠ virtualDevice "b" := by decide +kernel
  have hlinked : ∃ l ∈ (Domain.afterLetters .implicit lostOnOneSide).topology.links.items,
      l.heading = ⟨virtualDevice "a", virtualDevice "b"⟩ := by decide +kernel
  exact ⟨hsteady, hne, hlinked,
    (link_iff_last_applied_added lostOnOneSide hsteady _ _ hne).1.1 hlinked⟩

end Implicit

end Multidomain
