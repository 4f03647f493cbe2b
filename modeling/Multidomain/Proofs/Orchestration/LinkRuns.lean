import Multidomain.Proofs.Orchestration.Contents
import Multidomain.Proofs.Orchestration.LinkReports

/-!
# Runs of link reports

Links are reported in runs: first those that have come, then those that have gone. A run of additions
sets the flags of the headings that it tells for the pairs that these join, and a run of removals
clears the flags for what the headings carry then. The first run of additions may enter virtual links
and give out ports; afterwards each of its headings carries the link of its pair, and from there on the
same reports can change flags only. As the flags that they set and clear are then the same as before,
telling the reports again changes nothing.
-/

namespace Multidomain

/-- The domain without what link reports write under the implicit abstraction: ports, the book of links
and the links that are shown. -/
def Domain.unlinked (d : Domain) : Domain where
  registry := { d.registry with ports := .empty, links := .empty }
  topology := { d.topology with links := .empty }

theorem Topology.unlinked_heedAll {t : Topology} {notices : List Notice}
    (h : ∀ notice ∈ notices, ∃ e, notice = .link e ∨ notice = .unlink e) :
    ({ (t.heedAll notices).1 with links := .empty } : Topology) = { t with links := .empty } := by
  induction notices generalizing t with
  | nil => rfl
  | cons notice rest ih =>
    rw [List.forall_mem_cons] at h
    obtain ⟨⟨e, hnotice⟩, hrest⟩ := h
    rw [heedAll]
    split
    · rfl
    · refine (ih hrest).trans ?_
      obtain rfl | rfl := hnotice
      · rw [heed, detectLink_eq]
      · rw [heed, loseLink_eq]

/-- Some report tells the change of the heading. -/
def Tells (reports : List Report) (heading : Heading) (change : Change) : Prop :=
  ∃ r ∈ reports, r.told? = some (heading, change)

instance (reports : List Report) (heading : Heading) (change : Change) :
    Decidable (Tells reports heading change) :=
  inferInstanceAs (Decidable (∃ r ∈ reports, _))

theorem Report.change_of_told? {r : Report} {heading : Heading} {change : Change}
    (h : r.told? = some (heading, change)) : r.change = change := by
  obtain ⟨entry, helement, -⟩ := told?_eq_some.1 h
  rw [element?] at helement
  cases hkind : r.kind <;> rw [hkind] at helement <;>
    obtain ⟨read, -, hread⟩ := Option.map_eq_some_iff.1 helement <;> cases hread
  rfl

/-- Reports of one change tell no other. -/
theorem not_tells_of_change {reports : List Report} {told other : Change} (hne : told ≠ other)
    (h : ∀ r ∈ reports, r.change = told) (heading : Heading) : ¬ Tells reports heading other := by
  rintro ⟨r, hr, htold⟩
  exact hne ((h r hr).symm.trans (Report.change_of_told? htold))

/-- Additions of links and then removals. -/
structure LinkNews (added removed : List Report) : Prop where
  kind : ∀ r ∈ added ++ removed, r.kind = .link
  added : ∀ r ∈ added, r.change = .added
  removed : ∀ r ∈ removed, r.change = .removed

namespace Implicit

variable {d d' : Domain} {r : Report} {reports : List Report} {heading : Heading}

/-! ### What link reports leave alone -/

theorem unlinked_shown (t : Topology) (link : Ends) :
    ({ shown t link with links := .empty } : Topology) = { t with links := .empty } :=
  Topology.unlinked_heedAll (by simp)

theorem unlinked_hidden (t : Topology) (link : Ends) :
    ({ hidden t link with links := .empty } : Topology) = { t with links := .empty } :=
  Topology.unlinked_heedAll (by simp)

theorem unlinked_hear (hkind : r.kind = .link) : (d.hear .implicit r).unlinked = d.unlinked := by
  have heffect := effect_hear d r
  generalize helement : r.element? = element at heffect
  generalize d.hear .implicit r = d' at heffect ⊢
  cases heffect with
  | absorbed | attached | unattached => exact nomatch Report.element?_of_link hkind helement
  | folded entry hsrc hdst hne hfold =>
    obtain ⟨span, -, -, rfl⟩ | ⟨srcSpace, dstSpace, -, -, -, -, rfl⟩ :=
      Registry.foldLink_of_ok hsrc hdst hfold
    · exact congrArg (Domain.mk _) (unlinked_shown d.topology _)
    · exact congrArg (Domain.mk _) (unlinked_shown d.topology _)
  | withdrawn => exact congrArg (Domain.mk _) (unlinked_hidden d.topology _)
  | failed entry hsrc hdst hne hfold =>
    obtain ⟨ports, hleft⟩ := Registry.exists_ports_of_foldLink_error hfold
    rw [hleft]
    rfl
  | _ => rfl

theorem unlinked_hearAll (hkind : ∀ r ∈ reports, r.kind = .link) :
    (d.hearAll .implicit reports).unlinked = d.unlinked := by
  induction reports generalizing d with
  | nil => rfl
  | cons r rest ih =>
    rw [List.forall_mem_cons] at hkind
    exact (ih hkind.2).trans (unlinked_hear hkind.1)

theorem joins_congr (h : ∀ device, d'.registry.virtual? device = d.registry.virtual? device)
    (heading : Heading) (pair : DevicePair) : Joins d' heading pair ↔ Joins d heading pair := by
  simp only [Joins, Registry.bridge?, h]

theorem bridge?_of_unlinked (h : d'.unlinked = d.unlinked) (heading : Heading) :
    d'.registry.bridge? heading = d.registry.bridge? heading := by
  have hvirtuals : d'.registry.virtuals = d.registry.virtuals :=
    congrArg (fun d => d.registry.virtuals) h
  simp only [Registry.bridge?, Registry.virtual?, hvirtuals]

theorem joins_of_unlinked (h : d'.unlinked = d.unlinked) (heading : Heading) (pair : DevicePair) :
    Joins d' heading pair ↔ Joins d heading pair := by
  rw [Joins, Joins, bridge?_of_unlinked h]

theorem Coherent.hearAll (h : Coherent d) (reports : List Report) :
    Coherent (d.hearAll .implicit reports) := by
  induction reports generalizing d with
  | nil => exact h
  | cons r rest ih => exact ih (coherent_hear h r)

/-! ### The flags after a run -/

/-- A run of additions sets the flags that it tells of. -/
theorem Coherent.flag?_hearAll_added (h : Coherent d) (hkind : ∀ r ∈ reports, r.kind = .link)
    (hadds : ∀ heading, ¬ Tells reports heading .removed) (pair : DevicePair) (heading : Heading) :
    (d.hearAll .implicit reports).registry.links.flag? pair heading =
      if Tells reports heading .added ∧ Joins d heading pair then some true
      else d.registry.links.flag? pair heading := by
  induction reports generalizing d with
  | nil => simp [Tells]
  | cons r rest ih =>
    rw [List.forall_mem_cons] at hkind
    have hfirst : ¬ (r.told? = some (heading, .removed) ∧ Serves d heading pair) :=
      fun htold => hadds heading ⟨r, List.mem_cons_self, htold.1⟩
    have hrest := ih (coherent_hear h r) hkind.2 fun heading ⟨r', hr', htold⟩ =>
      hadds heading ⟨r', List.mem_cons_of_mem r hr', htold⟩
    simp only [h.flag?_hear r, joins_of_unlinked (unlinked_hear hkind.1), if_neg hfirst] at hrest
    refine hrest.trans ?_
    have htells : Tells (r :: rest) heading .added
        ↔ r.told? = some (heading, .added) ∨ Tells rest heading .added := by simp [Tells]
    by_cases hjoins : Joins d heading pair <;> by_cases hlater : Tells rest heading .added <;>
      simp [htells, hjoins, hlater]

theorem serves_hear_of_not_added (h : Coherent d) (hadds : r.told? ≠ some (heading, .added))
    (pair : DevicePair) : Serves (d.hear .implicit r) heading pair ↔ Serves d heading pair := by
  rw [h.serves_hear, if_neg fun htold => hadds htold.1]

/-- Removals leave what the headings carry. -/
theorem serves_hearAll_of_not_added (h : Coherent d) (hadds : ¬ Tells reports heading .added)
    (pair : DevicePair) :
    Serves (d.hearAll .implicit reports) heading pair ↔ Serves d heading pair := by
  induction reports generalizing d with
  | nil => rfl
  | cons r rest ih =>
    have hrest := ih (coherent_hear h r) fun ⟨r', hr', htold⟩ =>
      hadds ⟨r', List.mem_cons_of_mem r hr', htold⟩
    refine hrest.trans (serves_hear_of_not_added h ?_ pair)
    exact fun htold => hadds ⟨r, List.mem_cons_self, htold⟩

/-- A run of removals clears the flags that it tells of for what the headings carry. -/
theorem Coherent.flag?_hearAll_removed (h : Coherent d)
    (hremoves : ∀ heading, ¬ Tells reports heading .added) (pair : DevicePair) (heading : Heading) :
    (d.hearAll .implicit reports).registry.links.flag? pair heading =
      if Tells reports heading .removed ∧ Serves d heading pair then
        (d.registry.links.flag? pair heading).map fun _ => false
      else d.registry.links.flag? pair heading := by
  induction reports generalizing d with
  | nil => simp [Tells]
  | cons r rest ih =>
    have hfirst : r.told? ≠ some (heading, .added) :=
      fun htold => hremoves heading ⟨r, List.mem_cons_self, htold⟩
    have hrest := ih (coherent_hear h r) fun heading ⟨r', hr', htold⟩ =>
      hremoves heading ⟨r', List.mem_cons_of_mem r hr', htold⟩
    simp only [h.flag?_hear r, serves_hear_of_not_added h hfirst] at hrest
    refine hrest.trans ?_
    have htells : Tells (r :: rest) heading .removed
        ↔ r.told? = some (heading, .removed) ∨ Tells rest heading .removed := by simp [Tells]
    by_cases hserves : Serves d heading pair <;> by_cases hlater : Tells rest heading .removed <;>
      by_cases hnow : r.told? = some (heading, .removed) <;>
      simp [htells, hserves, hlater, hnow, hfirst]

/-! ### Headings that carry the link of their pair -/

/-- The heading carries the virtual link of the pair that it joins, if it joins one. -/
def Settled (d : Domain) (heading : Heading) : Prop :=
  ∀ a b, d.registry.bridge? heading = some (a, b) →
    ∃ span, Table.get? d.registry.links.spans (.of a b) = some span
      ∧ Table.get? d.registry.links.carried heading = some (LinkBook.seenFrom span a)

/-- An addition settles its heading, and no link report unsettles one. -/
theorem Coherent.settled_hear (h : Coherent d) (hkind : r.kind = .link)
    (hsettled : r.told? = some (heading, .added) ∨ Settled d heading) :
    Settled (d.hear .implicit r) heading := by
  intro a b hbridge
  rw [bridge?_of_unlinked (unlinked_hear hkind)] at hbridge
  have hstep := h.bookStep_hear r
  generalize (d.hear .implicit r).registry = registry at hstep ⊢
  cases hstep with
  | still hbook hsame hadded hremoved =>
    rw [hbook]
    obtain htold | hsettled := hsettled
    · simp [hadded heading htold] at hbridge
    · exact hsettled a b hbridge
  | disconnected real htold =>
    simp only [LinkBook.spans_disconnect, LinkBook.carried_disconnect]
    obtain hadded | hsettled := hsettled
    · simp [htold] at hadded
    · exact hsettled a b hbridge
  | @recorded real a' b' ports spans span hadds hbridge' hspan hpair hkeep hold =>
    have hspans : (LinkBook.record { d.registry.links with spans } real
        (LinkBook.seenFrom span a')).spans = spans :=
      LinkBook.spans_record_of_some (hpair.symm ▸ hspan)
    simp only [hspans, LinkBook.get?_carried_record]
    by_cases hheading : real.heading = heading
    · obtain ⟨rfl, rfl⟩ : a' = a ∧ b' = b := by
        simpa [hheading, hbridge] using hbridge'.symm
      exact ⟨span, hspan, if_pos hheading⟩
    · rw [if_neg hheading]
      have hother : r.told? ≠ some (heading, .added) := by
        simp [Report.told?_eq_added.2 ⟨real, hadds, rfl⟩, hheading]
      obtain ⟨s, hs, hcarried⟩ := hsettled.resolve_left hother a b hbridge
      refine ⟨s, ?_, hcarried⟩
      by_cases hhere : DevicePair.of a b = .of a' b'
      · rw [(hold s (hhere ▸ hs)).2.2, hs]
      · rw [hkeep _ hhere, hs]

theorem Coherent.settled_hearAll (h : Coherent d) (hkind : ∀ r ∈ reports, r.kind = .link)
    (hsettled : Tells reports heading .added ∨ Settled d heading) :
    Settled (d.hearAll .implicit reports) heading := by
  induction reports generalizing d with
  | nil => simpa [Tells] using hsettled
  | cons r rest ih =>
    rw [List.forall_mem_cons] at hkind
    refine ih (coherent_hear h r) hkind.2 ?_
    obtain ⟨r', hr', htold⟩ | hsettled := hsettled
    · obtain rfl | hr' := List.mem_cons.1 hr'
      · exact .inr (h.settled_hear hkind.1 (.inl htold))
      · exact .inl ⟨r', hr', htold⟩
    · exact .inr (h.settled_hear hkind.1 (.inr hsettled))

/-- The domains differ in the flags of the book, and in which virtual links are shown, only. -/
structure FlagsOnly (d d' : Domain) : Prop where
  unlinked : d'.unlinked = d.unlinked
  ports : d'.registry.ports = d.registry.ports
  spans : d'.registry.links.spans = d.registry.links.spans
  carried : d'.registry.links.carried = d.registry.links.carried
  pairs : ∀ pair, d'.registry.links.backers.contains pair = d.registry.links.backers.contains pair

theorem FlagsOnly.refl (d : Domain) : FlagsOnly d d := ⟨rfl, rfl, rfl, rfl, fun _ => rfl⟩

theorem FlagsOnly.trans {d'' : Domain} (h : FlagsOnly d d') (h' : FlagsOnly d' d'') :
    FlagsOnly d d'' :=
  ⟨h'.unlinked.trans h.unlinked, h'.ports.trans h.ports, h'.spans.trans h.spans,
    h'.carried.trans h.carried, fun pair => (h'.pairs pair).trans (h.pairs pair)⟩

theorem FlagsOnly.settled (h : FlagsOnly d d') (hsettled : Settled d heading) :
    Settled d' heading := by
  intro a b hbridge
  rw [bridge?_of_unlinked h.unlinked] at hbridge
  rw [h.spans, h.carried]
  exact hsettled a b hbridge

theorem FlagsOnly.serves_iff (h : FlagsOnly d d') (pair : DevicePair) :
    Serves d' heading pair ↔ Serves d heading pair := by
  rw [Serves, Serves, h.carried]

/-- A report of a settled heading changes flags only. -/
theorem Coherent.flagsOnly_hear (h : Coherent d) (hkind : r.kind = .link)
    (hsettled : ∀ heading, r.told? = some (heading, .added) → Settled d heading) :
    FlagsOnly d (d.hear .implicit r) := by
  have hunlinked := unlinked_hear (d := d) hkind
  have hstep := h.bookStep_hear r
  generalize d.hear .implicit r = d' at hunlinked hstep ⊢
  obtain ⟨registry, topology⟩ := d'
  simp only at hstep
  cases hstep with
  | still hbook hsame hadded hremoved =>
    obtain rfl := hsame hkind
    exact ⟨hunlinked, rfl, rfl, rfl, fun _ => rfl⟩
  | disconnected real hremoved =>
    exact ⟨hunlinked, rfl, LinkBook.spans_disconnect .., LinkBook.carried_disconnect ..,
      fun pair => LinkBook.contains_backers_disconnect ..⟩
  | @recorded real a b ports spans span hadds hbridge hspan hpair hkeep hold =>
    have htold := Report.told?_eq_added.2 ⟨real, hadds, rfl⟩
    obtain ⟨s, hs, hcarried⟩ := hsettled real.heading htold a b hbridge
    obtain ⟨rfl, rfl, rfl⟩ := hold s hs
    -- what the heading carries has a flag for it, so its pair is in the book
    have hthere : d.registry.links.backers.contains (.of a b) = true := by
      obtain ⟨hflag, -⟩ := h.span_of_carried hcarried
      rw [hpair] at hflag
      rw [Table.contains_eq_isSome_get?]
      exact Option.isSome_of_isSome_bind hflag
    refine ⟨hunlinked, rfl, LinkBook.spans_record_of_some (hpair.symm ▸ hs), ?_, fun pair => ?_⟩
    · refine Roster.put_eq_self (a := (real.heading, LinkBook.seenFrom s a)) ?_
      exact Roster.mem_items_iff.1 (Table.get?_eq_some_iff.1 hcarried)
    · refine (LinkBook.contains_backers_record ..).trans ?_
      rw [hpair]
      by_cases hhere : DevicePair.of a b = pair
      · rw [← hhere, hthere, Bool.or_true]
      · rw [beq_false_of_ne hhere, Bool.false_or]

theorem Coherent.flagsOnly_hearAll (h : Coherent d) (hkind : ∀ r ∈ reports, r.kind = .link)
    (hsettled : ∀ heading, Tells reports heading .added → Settled d heading) :
    FlagsOnly d (d.hearAll .implicit reports) := by
  induction reports generalizing d with
  | nil => exact .refl d
  | cons r rest ih =>
    rw [List.forall_mem_cons] at hkind
    have hfirst : FlagsOnly d (d.hear .implicit r) :=
      h.flagsOnly_hear hkind.1 fun heading htold => hsettled heading ⟨r, List.mem_cons_self, htold⟩
    refine hfirst.trans (ih (coherent_hear h r) hkind.2 ?_)
    rintro heading ⟨r', hr', htold⟩
    exact hfirst.settled (hsettled heading ⟨r', List.mem_cons_of_mem r hr', htold⟩)

/-! ### The same reports again -/

variable {added removed : List Report}

/-- Reports of links that have been told before change flags only. -/
theorem Coherent.flagsOnly_again (h : Coherent d) (hkind : ∀ r ∈ reports, r.kind = .link)
    {again : List Report} (hagain : ∀ r ∈ again, r ∈ reports) :
    FlagsOnly (d.hearAll .implicit reports)
      ((d.hearAll .implicit reports).hearAll .implicit again) := by
  refine (h.hearAll _).flagsOnly_hearAll (fun r hr => hkind r (hagain r hr)) ?_
  rintro heading ⟨r, hr, htold⟩
  exact h.settled_hearAll hkind (.inl ⟨r, hagain r hr, htold⟩)

/-- The flags after additions and then removals. -/
theorem Coherent.flag?_hearAll (h : Coherent d) (hnews : LinkNews added removed) (pair : DevicePair)
    (heading : Heading) :
    let set := if Tells added heading .added ∧ Joins d heading pair then some true
      else d.registry.links.flag? pair heading
    (d.hearAll .implicit (added ++ removed)).registry.links.flag? pair heading =
      if Tells removed heading .removed ∧ Serves (d.hearAll .implicit added) heading pair then
        set.map fun _ => false
      else set := by
  have hkind : ∀ r ∈ added, r.kind = .link := fun r hr => hnews.kind r (List.mem_append_left _ hr)
  rw [Domain.hearAll_append,
    (h.hearAll added).flag?_hearAll_removed (not_tells_of_change (by decide) hnews.removed),
    h.flag?_hearAll_added hkind (not_tells_of_change (by decide) hnews.added)]

/-- The same flags are set and cleared when the reports are told again. -/
theorem Coherent.flags_twice (h : Coherent d) (hnews : LinkNews added removed) (pair : DevicePair)
    (heading : Heading) :
    let once := d.hearAll .implicit (added ++ removed)
    (once.hearAll .implicit (added ++ removed)).registry.links.flag? pair heading
      = once.registry.links.flag? pair heading := by
  intro once
  have hjoins : Joins once heading pair ↔ Joins d heading pair :=
    joins_of_unlinked (unlinked_hearAll hnews.kind) heading pair
  have hserves : Serves (once.hearAll .implicit added) heading pair
      ↔ Serves (d.hearAll .implicit added) heading pair := by
    have hsame := h.flagsOnly_again hnews.kind fun _ => List.mem_append_left removed
    refine (hsame.serves_iff pair).trans ?_
    rw [Domain.hearAll_append, serves_hearAll_of_not_added (h.hearAll added)
      (not_tells_of_change (by decide) hnews.removed heading)]
  have honce := h.flag?_hearAll hnews pair heading
  rw [(h.hearAll _).flag?_hearAll hnews]
  simp only [once, hjoins, hserves, honce]
  by_cases hset : Tells added heading .added ∧ Joins d heading pair <;>
    by_cases hcleared : Tells removed heading .removed
      ∧ Serves (d.hearAll .implicit added) heading pair <;>
    simp [hset, hcleared]

/-- If no flag differs either, the domains have the same content. -/
theorem Coherent.same_of_flagsOnly (h : Coherent d) (h' : Coherent d') (hsame : FlagsOnly d d')
    (hflags : ∀ pair heading,
      d'.registry.links.flag? pair heading = d.registry.links.flag? pair heading) :
    d'.Same d := by
  have hregistry := congrArg Domain.registry hsame.unlinked
  have htopology := congrArg Domain.topology hsame.unlinked
  have hshows : ∀ e, d'.registry.links.Shows e ↔ d.registry.links.Shows e := by
    intro e
    simp only [LinkBook.Shows, LinkBook.isUp_iff_flag?, hsame.spans, hflags]
  constructor
  case registry =>
    exact {
      owners := .of_eq (congrArg Registry.owners hregistry :)
      natives := .of_eq (congrArg Registry.natives hregistry :)
      aliases := .of_eq (congrArg Registry.aliases hregistry :)
      virtuals := .of_eq (congrArg Registry.virtuals hregistry :)
      ports := .of_eq hsame.ports
      links := ⟨hsame.pairs, hflags, .of_eq hsame.carried, .of_eq hsame.spans⟩
      hosts := .of_eq (congrArg Registry.hosts hregistry :)
      virtualHosts := .of_eq (congrArg Registry.virtualHosts hregistry :) }
  case topology =>
    exact {
      devices := .of_eq (congrArg Topology.devices htopology :)
      links := fun e => Option.ext fun l => by rw [h.find?_iff, h'.find?_iff, hshows]
      hosts := .of_eq (congrArg Topology.hosts htopology :)
      flows := .of_eq (congrArg Topology.flows htopology :) }

/-- Additions and removals that are told again change nothing. -/
theorem Coherent.same_twice (h : Coherent d) (hnews : LinkNews added removed) :
    ((d.hearAll .implicit (added ++ removed)).hearAll .implicit (added ++ removed)).Same
      (d.hearAll .implicit (added ++ removed)) := by
  have honce := h.hearAll (added ++ removed)
  exact honce.same_of_flagsOnly (honce.hearAll _) (h.flagsOnly_again hnews.kind fun _ hr => hr)
    (h.flags_twice hnews)

end Implicit

end Multidomain
