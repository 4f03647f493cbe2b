import Multidomain.Proofs.Mapping.PortBook
import Multidomain.Proofs.Orchestration.MixedHistory

/-!
# What link reports do to the book

A link report concerns one heading. An addition counts while the two devices of the heading belong to
two different virtual devices: it sets the heading's flag for that pair, and from then on the heading
carries the virtual link of the pair. A removal clears the flag that the heading has for the pair of
whatever it carries. The lemmas of the first part say this for each table of the book, and they say all
that a report does to it.
-/

namespace Multidomain

/-- The heading that a link report concerns, and whether it reports the link as come or gone. -/
def Report.told? (r : Report) : Option (Heading × Change) :=
  match r.element? with
  | some (.link entry change) => some (entry.ends.heading, change)
  | _ => none

theorem Report.told?_eq_some {r : Report} {heading : Heading} {change : Change} :
    r.told? = some (heading, change)
      ↔ ∃ entry, r.element? = some (.link entry change) ∧ entry.ends.heading = heading := by
  unfold told?
  split
  · next entry change' helement =>
    simp only [helement, Option.some.injEq, Prod.mk.injEq, Element.link.injEq]
    constructor
    · rintro ⟨rfl, rfl⟩
      exact ⟨entry, ⟨rfl, rfl⟩, rfl⟩
    · rintro ⟨_, ⟨rfl, rfl⟩, rfl⟩
      exact ⟨rfl, rfl⟩
  · next hother =>
    refine ⟨nofun, ?_⟩
    rintro ⟨entry, helement, -⟩
    exact absurd helement (hother entry change)

theorem Report.element?_of_link {r : Report} {e : Element} (hkind : r.kind = .link)
    (h : r.element? = some e) : ∃ entry, e = .link entry r.change := by
  rw [element?, hkind] at h
  obtain ⟨entry, -, rfl⟩ := Option.map_eq_some_iff.1 h
  exact ⟨entry, rfl⟩

/-- The ends of the link that a report adds, where it adds one. -/
def Report.adds? (r : Report) : Option Ends :=
  match r.element? with
  | some (.link entry .added) => some entry.ends
  | _ => none

/-- The ends of the link that a report removes, where it removes one. -/
def Report.removes? (r : Report) : Option Ends :=
  match r.element? with
  | some (.link entry .removed) => some entry.ends
  | _ => none

theorem Report.told?_eq_added {r : Report} {heading : Heading} :
    r.told? = some (heading, .added) ↔ ∃ real, r.adds? = some real ∧ real.heading = heading := by
  unfold told? adds?
  cases r.element? with
  | none => simp
  | some e =>
    match e with
    | .device _ => simp
    | .link _ .added => simp
    | .link _ .removed => simp
    | .host _ => simp

theorem Report.told?_eq_removed {r : Report} {heading : Heading} :
    r.told? = some (heading, .removed) ↔ ∃ lost, r.removes? = some lost ∧ lost.heading = heading := by
  unfold told? removes?
  cases r.element? with
  | none => simp
  | some e =>
    match e with
    | .device _ => simp
    | .link _ .added => simp
    | .link _ .removed => simp
    | .host _ => simp

/-- The device that a report names, where it brings one. -/
def Report.device? (r : Report) : Option DeviceId :=
  match r.element? with
  | some (.device entry) => some entry.id
  | _ => none

/-- The two virtual devices that the devices of a heading belong to, where they belong to two different
ones. -/
def Registry.bridge? (r : Registry) (heading : Heading) : Option (DeviceId × DeviceId) :=
  match r.virtual? heading.source, r.virtual? heading.target with
  | some a, some b => if a = b then none else some (a, b)
  | _, _ => none

theorem Registry.bridge?_eq_some {r : Registry} {heading : Heading} {a b : DeviceId} :
    r.bridge? heading = some (a, b)
      ↔ r.virtual? heading.source = some a ∧ r.virtual? heading.target = some b ∧ a ≠ b := by
  unfold bridge?
  cases r.virtual? heading.source <;> cases r.virtual? heading.target <;> simp
  rename_i src dst
  by_cases hsame : src = dst
  · subst hsame
    simp
    rintro rfl
    exact id
  · simp [hsame]
    rintro rfl rfl
    exact hsame

namespace Implicit

variable {d : Domain}

/-- Folding records the real link for the virtual link of its pair, which is entered with new ports
where there is none. -/
theorem Coherent.links_of_foldLink {real link : Ends} {src dst : DeviceId} {registry : Registry}
    (h : Coherent d) (hsrc : d.registry.virtual? real.src.device = some src)
    (hdst : d.registry.virtual? real.dst.device = some dst)
    (hfold : d.registry.foldLink real = .ok (registry, link)) :
    ∃ ports spans span, registry = { d.registry with
          ports, links := LinkBook.record { d.registry.links with spans } real link }
      ∧ Table.get? spans (.of src dst) = some span ∧ link = LinkBook.seenFrom span src
      ∧ link.pair = .of src dst
      ∧ (∀ pair, pair ≠ .of src dst →
        Table.get? spans pair = Table.get? d.registry.links.spans pair)
      ∧ (∀ s, Table.get? d.registry.links.spans (.of src dst) = some s →
        s = span ∧ ports = d.registry.ports ∧ spans = d.registry.links.spans)
      ∧ (Table.get? d.registry.links.spans (.of src dst) = none →
        ports.Holds span.src real.src ∧ ports.Holds span.dst real.dst) := by
  obtain ⟨span, hspan, rfl, rfl⟩ | ⟨srcSpace, dstSpace, hnone, -, hdstSpace, rfl, rfl⟩ :=
    Registry.foldLink_of_ok hsrc hdst hfold
  · refine ⟨d.registry.ports, _, span, rfl, hspan, rfl, h.pair_seenFrom hspan, fun _ _ => rfl, ?_, ?_⟩
    · intro s hs
      exact ⟨Option.some.inj (hs.symm.trans hspan), rfl, rfl⟩
    · intro hnone
      exact nomatch hspan.symm.trans hnone
  · refine ⟨_, _, _, rfl, Table.get?_set_self _ _ _, ?_, rfl, ?_, ?_, ?_⟩
    · simp [LinkBook.seenFrom, Ends.orientedFrom?, Registry.firstLink]
    · intro pair hpair
      rw [Table.get?_set, if_neg (Ne.symm hpair)]
    · intro s hs
      simp [hnone] at hs
    · intro _
      exact ⟨(PortBook.holds_allocate_self ..).allocate hdstSpace _, PortBook.holds_allocate_self ..⟩

/-- The virtual device of a device changes by the report of that device only. -/
theorem Coherent.virtual?_hear (h : Coherent d) (r : Report) (device : DeviceId) :
    (d.hear .implicit r).registry.virtual? device =
      if r.device? = some device then some (ChildAddress.virtualDevice r.child)
      else d.registry.virtual? device := by
  have heffect := effect_hear d r
  generalize helement : r.element? = element at heffect
  generalize d.hear .implicit r = d' at heffect ⊢
  cases heffect with
  | absorbed entry =>
    simp only [Report.device?, helement, Option.some.injEq]
    exact Registry.virtual?_mapDevice ..
  | folded entry hsrc hdst hne hfold =>
    obtain ⟨_, _, _, rfl, -⟩ := h.links_of_foldLink hsrc hdst hfold
    simp only [Report.device?, helement, reduceCtorEq, if_false]
    rfl
  | attached entry hexpose =>
    obtain ⟨space, -, -, -, rfl⟩ := Registry.exposePoint_of_ok hexpose
    simp only [Report.device?, helement, reduceCtorEq, if_false]
    rfl
  | thinned | withdrawn =>
    simp only [Report.device?, helement, reduceCtorEq, if_false]
    rfl
  | failed entry hsrc hdst hne hfold => exact absurd hfold (h.foldLink_ne_error hsrc hdst)
  | unread | ignored | unknown | unattached =>
    simp only [Report.device?, helement, reduceCtorEq, if_false]

/-- What a report can do to the book of links, and a link report to the registry. -/
inductive BookStep (d : Domain) (r : Report) : Registry → Prop where
  /-- The report removes no link, and adds none between two virtual devices. -/
  | still {registry : Registry} (hbook : registry.links = d.registry.links)
      (hsame : r.kind = .link → registry = d.registry)
      (hadded : ∀ heading, r.told? = some (heading, .added) → d.registry.bridge? heading = none)
      (hremoved : ∀ heading, r.told? ≠ some (heading, .removed)) : BookStep d r registry
  /-- The added link is recorded for the virtual link of its pair, old or new. -/
  | recorded (real : Ends) {a b : DeviceId} (ports : PortBook) (spans : Table DevicePair Ends)
      (span : Ends) (hadds : r.adds? = some real)
      (hbridge : d.registry.bridge? real.heading = some (a, b))
      (hspan : Table.get? spans (.of a b) = some span)
      (hpair : (LinkBook.seenFrom span a).pair = .of a b)
      (hkeep : ∀ pair, pair ≠ .of a b →
        Table.get? spans pair = Table.get? d.registry.links.spans pair)
      (hold : ∀ s, Table.get? d.registry.links.spans (.of a b) = some s →
        s = span ∧ ports = d.registry.ports ∧ spans = d.registry.links.spans)
      (hnew : Table.get? d.registry.links.spans (.of a b) = none →
        ports.Holds span.src real.src ∧ ports.Holds span.dst real.dst) :
      BookStep d r { d.registry with
        ports, links := LinkBook.record { d.registry.links with spans } real
          (LinkBook.seenFrom span a) }
  /-- The removed link is disconnected from whatever it carries. -/
  | disconnected (real : Ends) (htold : r.told? = some (real.heading, .removed)) :
      BookStep d r { d.registry with links := d.registry.links.disconnect real }

theorem Coherent.bookStep_hear (h : Coherent d) (r : Report) :
    BookStep d r (d.hear .implicit r).registry := by
  have heffect := effect_hear d r
  generalize helement : r.element? = element at heffect
  generalize d.hear .implicit r = d' at heffect ⊢
  have hother : ∀ {registry : Registry}, (∀ entry change, r.element? ≠ some (.link entry change)) →
      registry.links = d.registry.links → (r.kind = .link → registry = d.registry) →
      BookStep d r registry := by
    intro registry hlink hbook hsame
    have htold : r.told? = none := by
      unfold Report.told?
      split
      · next entry change heq => exact absurd heq (hlink entry change)
      · rfl
    exact .still hbook hsame (by simp [htold]) (by simp [htold])
  cases heffect with
  | unknown entry hnone =>
    have hsame : d.registry.links.disconnect entry.ends = d.registry.links := by
      rw [LinkBook.disconnect, hnone]
    have hstep : BookStep d r { d.registry with links := d.registry.links.disconnect entry.ends } :=
      .disconnected entry.ends (by simp [Report.told?, helement])
    rwa [hsame] at hstep
  | thinned entry => exact .disconnected entry.ends (by simp [Report.told?, helement])
  | withdrawn entry => exact .disconnected entry.ends (by simp [Report.told?, helement])
  | failed entry hsrc hdst hne hfold => exact absurd hfold (h.foldLink_ne_error hsrc hdst)
  | ignored entry hinner =>
    have htold : r.told? = some (entry.ends.heading, .added) := by simp [Report.told?, helement]
    refine .still rfl (fun _ => rfl) (fun heading hheading => ?_) (by simp [htold])
    obtain rfl : entry.ends.heading = heading := by simpa [htold] using hheading
    cases hbridge : d.registry.bridge? entry.ends.heading with
    | none => rfl
    | some ends =>
      obtain ⟨hsrc, hdst, hne⟩ := Registry.bridge?_eq_some.1 hbridge
      exact absurd (hinner _ _ hsrc hdst) hne
  | folded entry hsrc hdst hne hfold =>
    obtain ⟨ports, spans, span, rfl, hspan, rfl, hpair, hkeep, hold, hnew⟩ :=
      h.links_of_foldLink hsrc hdst hfold
    exact .recorded entry.ends ports spans span (by simp [Report.adds?, helement])
      (Registry.bridge?_eq_some.2 ⟨hsrc, hdst, hne⟩) hspan hpair hkeep hold hnew
  | attached entry hexpose =>
    obtain ⟨space, -, -, -, rfl⟩ := Registry.exposePoint_of_ok hexpose
    exact hother (by simp [helement]) rfl fun hkind => by
      obtain ⟨_, ⟨⟩⟩ := Report.element?_of_link hkind helement
  | absorbed =>
    exact hother (by simp [helement]) rfl fun hkind => by
      obtain ⟨_, ⟨⟩⟩ := Report.element?_of_link hkind helement
  | unread | unattached => exact hother (by simp [helement]) rfl fun _ => rfl

/-- What real links with the heading carry is the virtual link of the pair. -/
def Serves (d : Domain) (heading : Heading) (pair : DevicePair) : Prop :=
  (Table.get? d.registry.links.carried heading).map Ends.pair = some pair

instance (heading : Heading) (pair : DevicePair) : Decidable (Serves d heading pair) :=
  inferInstanceAs (Decidable (_ = _))

/-- The two devices of the heading belong to the two virtual devices of the pair. -/
def Joins (d : Domain) (heading : Heading) (pair : DevicePair) : Prop :=
  (d.registry.bridge? heading).map (fun ends => DevicePair.of ends.1 ends.2) = some pair

instance (heading : Heading) (pair : DevicePair) : Decidable (Joins d heading pair) :=
  inferInstanceAs (Decidable (_ = _))

theorem joins_iff {heading : Heading} {pair : DevicePair} :
    Joins d heading pair ↔ ∃ a b, d.registry.virtual? heading.source = some a
      ∧ d.registry.virtual? heading.target = some b ∧ a ≠ b ∧ DevicePair.of a b = pair := by
  unfold Joins
  constructor
  · intro hjoins
    obtain ⟨⟨a, b⟩, hbridge, hpair⟩ := Option.map_eq_some_iff.1 hjoins
    obtain ⟨hsrc, hdst, hne⟩ := Registry.bridge?_eq_some.1 hbridge
    exact ⟨a, b, hsrc, hdst, hne, hpair⟩
  · rintro ⟨a, b, hsrc, hdst, hne, rfl⟩
    rw [Registry.bridge?_eq_some.2 ⟨hsrc, hdst, hne⟩]
    rfl

/-- An addition sets the flag of its heading for the pair that it joins, a removal clears that for the
pair of what the heading carries, and nothing else changes a flag. -/
theorem Coherent.flag?_hear (h : Coherent d) (r : Report) (pair : DevicePair) (heading : Heading) :
    (d.hear .implicit r).registry.links.flag? pair heading =
      if r.told? = some (heading, .added) ∧ Joins d heading pair then some true
      else if r.told? = some (heading, .removed) ∧ Serves d heading pair then
        (d.registry.links.flag? pair heading).map fun _ => false
      else d.registry.links.flag? pair heading := by
  have hstep := h.bookStep_hear r
  generalize (d.hear .implicit r).registry = registry at hstep ⊢
  cases hstep with
  | still hbook hsame hadded hremoved =>
    rw [hbook]
    have hnot : ¬ (r.told? = some (heading, .added) ∧ Joins d heading pair) := by
      intro ⟨htold, hjoins⟩
      simp [Joins, hadded heading htold] at hjoins
    simp [hnot, hremoved heading]
  | recorded real ports spans span hadds hbridge hspan hpair =>
    rw [LinkBook.flag?_record, hpair, Report.told?_eq_added.2 ⟨real, hadds, rfl⟩]
    by_cases hheading : real.heading = heading
    · subst hheading
      simp [Joins, hbridge]
      rfl
    · simp [hheading]
      rfl
  | disconnected real htold =>
    have hcarried : (d.registry.links.carriedBy? real).map Ends.pair = some pair
        ↔ Serves d real.heading pair := Iff.rfl
    simp only [LinkBook.flag?_disconnect, hcarried, htold]
    by_cases hheading : real.heading = heading
    · subst hheading
      simp
    · simp [hheading]

/-- What a heading carries after a report. -/
theorem Coherent.serves_hear (h : Coherent d) (r : Report) (pair : DevicePair) (heading : Heading) :
    Serves (d.hear .implicit r) heading pair ↔
      if r.told? = some (heading, .added) ∧ (d.registry.bridge? heading).isSome then Joins d heading pair
      else Serves d heading pair := by
  have hstep := h.bookStep_hear r
  unfold Serves
  generalize (d.hear .implicit r).registry = registry at hstep ⊢
  cases hstep with
  | still hbook hsame hadded hremoved =>
    rw [hbook]
    have hnot : ¬ (r.told? = some (heading, .added) ∧ (d.registry.bridge? heading).isSome) := by
      intro ⟨htold, hsome⟩
      simp [hadded heading htold] at hsome
    simp [hnot]
  | recorded real ports spans span hadds hbridge hspan hpair =>
    simp only [LinkBook.record, Table.get?_set, Report.told?_eq_added.2 ⟨real, hadds, rfl⟩]
    by_cases hheading : real.heading = heading
    · subst hheading
      simp [Joins, hbridge, hpair]
    · simp [hheading]
  | disconnected real htold =>
    rw [LinkBook.carried_disconnect, htold]
    simp

/-! ### Which reports are applied -/

/-- The report is applied, not skipped. -/
def Applies (d : Domain) (r : Report) : Prop :=
  (d.takeUpJson .implicit r.child r.kind r.change r.value).2.2 = none

theorem Coherent.applies_iff (h : Coherent d) {r : Report} :
    Applies d r ↔ (d.registry.meaning? .implicit r).isSome := by
  cases hmeaning : d.registry.meaning? .implicit r with
  | none =>
    obtain ⟨fault, htaken⟩ := Domain.takeUpJson_of_meaningless hmeaning fun _ => h.housed
    simp [Applies, htaken]
  | some m =>
    obtain ⟨e, -, hm⟩ := Registry.meaning?_eq_some hmeaning
    have haccepted := fun notice hnotice => (h.under_of_meaning hm notice hnotice).refusal?
    simp [Applies, (Domain.takeUpJson_of_accepted hmeaning haccepted).2]

theorem meaning?_of_element {r : Report} {e : Element} (registry : Registry)
    (helement : r.element? = some e) :
    registry.meaning? .implicit r = (meaning r.child registry e).toOption := by
  rw [Registry.meaning?, helement]
  rfl

/-- A link that is reported lost is always taken note of. -/
theorem Coherent.applies_removed (h : Coherent d) {r : Report} {heading : Heading}
    (htold : r.told? = some (heading, .removed)) : Applies d r := by
  obtain ⟨entry, helement, -⟩ := Report.told?_eq_some.1 htold
  rw [h.applies_iff, meaning?_of_element d.registry helement, meaning]
  split
  · rfl
  · split <;> rfl

/-- A new link is taken note of when both of its devices belong to virtual ones. -/
theorem Coherent.applies_added_iff (h : Coherent d) {r : Report} {heading : Heading}
    (htold : r.told? = some (heading, .added)) :
    Applies d r ↔ ∃ a b, d.registry.virtual? heading.source = some a
      ∧ d.registry.virtual? heading.target = some b := by
  obtain ⟨entry, helement, rfl⟩ := Report.told?_eq_some.1 htold
  rw [h.applies_iff, meaning?_of_element d.registry helement]
  constructor
  · intro hsome
    cases hmeaning : meaning r.child d.registry (.link entry .added) with
    | error fault => simp [hmeaning, Except.toOption] at hsome
    | ok m =>
      obtain ⟨src, hsrc, hmeaning⟩ := exists_of_bind_eq_ok hmeaning
      obtain ⟨dst, hdst, -⟩ := exists_of_bind_eq_ok hmeaning
      exact ⟨src, dst, Registry.virtual_of_ok (mapError_eq_ok hsrc),
        Registry.virtual_of_ok (mapError_eq_ok hdst)⟩
  · rintro ⟨src, dst, hsrc, hdst⟩
    rw [meaning_added r.child hsrc hdst]
    by_cases hsame : src = dst
    · rw [if_pos hsame]
      rfl
    · rw [if_neg hsame]
      cases hfold : d.registry.foldLink entry.ends with
      | error fault => exact absurd hfold (h.foldLink_ne_error hsrc hdst)
      | ok folded => rfl

/-! ### Which links are shown -/

/-- A link leads from one virtual device to another exactly when a flag is set for the pair, if every
heading with such a flag carries the link of the pair. -/
theorem Coherent.exists_heading_iff (h : Coherent d) {a b : DeviceId}
    (hserved : ∀ heading, d.registry.links.flag? (.of a b) heading = some true →
      Serves d heading (.of a b)) :
    (∃ l ∈ d.topology.links.items, l.heading = ⟨a, b⟩)
      ↔ ∃ heading, d.registry.links.flag? (.of a b) heading = some true := by
  constructor
  · rintro ⟨l, hl, hheading⟩
    obtain ⟨-, -, hup⟩ := h.mem_links_iff.1 hl
    obtain ⟨heading, hflag⟩ := LinkBook.isUp_iff_flag?.1 hup
    rw [Ends.pair_of_heading hheading] at hflag
    exact ⟨heading, hflag⟩
  · rintro ⟨heading, hflag⟩
    obtain ⟨carried, hcarried, hpair⟩ := Option.map_eq_some_iff.1 (hserved heading hflag)
    obtain ⟨-, span, hspan, -⟩ := h.span_of_carried hcarried
    rw [hpair] at hspan
    obtain ⟨link, hlink⟩ := h.lookup?_of_span hspan
    obtain ⟨hheading, -⟩ := h.lookup?_eq_some hlink
    have hup : d.registry.links.isUp link = true := by
      rw [LinkBook.isUp_iff_flag?, Ends.pair_of_heading hheading]
      exact ⟨heading, hflag⟩
    exact ⟨.direct link, ((h.mem_between_iff hlink hup _).2 (.inl rfl)).1, hheading⟩

end Implicit
end Multidomain
