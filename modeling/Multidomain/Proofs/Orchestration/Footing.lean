import Multidomain.Proofs.Orchestration.LinkReports

/-!
# What a virtual link stands on

A virtual link is shown because real links carry it, and its two ports lead back to real connect
points. The two are not the same thing. The ports belong to the first real link that was ever folded
for the pair of virtual devices, and they stay when that link is lost and another one carries on.
What a shown link stands on is therefore said in two parts: the first fold of its pair, which fixes
the ports, and a fold that no loss has undone, which keeps it up.
-/

namespace Multidomain

/-- The connect points of the link that a report adds, or of the host that it brings. -/
def Report.points (r : Report) : List ConnectPoint :=
  match r.element? with
  | some (.link entry .added) => [entry.ends.src, entry.ends.dst]
  | some (.host entry) => [entry.location]
  | _ => []

/-- The real connect points behind the two ends of a virtual link. -/
def Registry.behind? (r : Registry) (e : Ends) : Option Ends := do
  let src ← r.resolve? e.src.device e.src.port
  let dst ← r.resolve? e.dst.device e.dst.port
  return { src, dst }

namespace Implicit

/-- The domain of a node after reports under the implicit abstraction. -/
abbrev after (reports : List Report) : Domain := Domain.empty.hearAll .implicit reports

/-- The report adds a real link between devices that belong to two different virtual devices, those
of the pair. -/
def Folds (d : Domain) (r : Report) (real : Ends) (pair : DevicePair) : Prop :=
  r.adds? = some real ∧ ∃ src dst, d.registry.virtual? real.src.device = some src ∧
    d.registry.virtual? real.dst.device = some dst ∧ src ≠ dst ∧ DevicePair.of src dst = pair

/-- The real link is the first that was folded for the pair. -/
def FirstFold (reports : List Report) (pair : DevicePair) (real : Ends) : Prop :=
  ∃ before r rest, reports = before ++ r :: rest ∧ Folds (after before) r real pair ∧
    ∀ before' r' rest' real', before = before' ++ r' :: rest' →
      ¬ Folds (after before') r' real' pair

/-- After `start`, a link with the heading was folded for another pair than this one. -/
def Moved (start reports : List Report) (pair : DevicePair) (heading : Heading) : Prop :=
  ∃ before r rest real other, reports = before ++ r :: rest ∧
    Folds (after (start ++ before)) r real other ∧ real.heading = heading ∧ other ≠ pair

/-- A link with the heading was folded for the pair, and no loss of it has undone that: it was not
reported lost since, unless it had first been folded for another pair. -/
def Stands (reports : List Report) (pair : DevicePair) (heading : Heading) : Prop :=
  ∃ before r rest real, reports = before ++ r :: rest ∧ Folds (after before) r real pair ∧
    real.heading = heading ∧
    ∀ mid x rest' lost, rest = mid ++ x :: rest' → x.removes? = some lost →
      lost.heading = heading → Moved (before ++ [r]) mid pair heading

theorem FirstFold.concat {reports : List Report} {pair : DevicePair} {real : Ends}
    (h : FirstFold reports pair real) (x : Report) : FirstFold (reports ++ [x]) pair real := by
  obtain ⟨before, r, rest, rfl, hfolds, hfirst⟩ := h
  exact ⟨before, r, rest ++ [x], by simp, hfolds, hfirst⟩

theorem Moved.concat {start reports : List Report} {pair : DevicePair} {heading : Heading}
    (h : Moved start reports pair heading) (x : Report) :
    Moved start (reports ++ [x]) pair heading := by
  obtain ⟨before, r, rest, real, other, rfl, hfolds⟩ := h
  exact ⟨before, r, rest ++ [x], real, other, by simp, hfolds⟩

variable {d : Domain} {r : Report}

/-! ### What one report does to ports, virtual links and flags -/

/-- A report gives ports to the connect points of its link or host only, and takes none away. -/
theorem ports_grow (d : Domain) (r : Report) :
    PortBook.Grows r.points d.registry.ports (d.hear .implicit r).registry.ports := by
  have heffect := effect_hear d r
  generalize helement : r.element? = element at heffect
  generalize d.hear .implicit r = d' at heffect ⊢
  cases heffect with
  | unread => exact .refl ..
  | ignored => exact .refl ..
  | failed entry hsrc hdst hne hfold =>
    obtain hsame | ⟨src, space, -, hspace, hgiven⟩ :=
      Registry.stateAfter_foldLinkInPlace_of_error hfold
    · rw [hsame]
      exact .refl ..
    · rw [hgiven]
      exact (PortBook.Grows.refl ..).allocate hspace (by simp [Report.points, helement])
  | unknown => exact .refl ..
  | thinned => exact .refl ..
  | withdrawn => exact .refl ..
  | unattached => exact .refl ..
  | absorbed entry => exact .openSpace ..
  | attached entry hexpose =>
    obtain ⟨own, _, hown, _, rfl⟩ := Registry.exposePoint_of_ok hexpose
    exact (PortBook.Grows.refl ..).allocate hown (by simp [Report.points, helement])
  | folded entry hsrc hdst hne hfold =>
    have hpoints : r.points = [entry.ends.src, entry.ends.dst] := by simp [Report.points, helement]
    rw [hpoints]
    obtain ⟨span, _, rfl, rfl⟩ | ⟨srcSpace, dstSpace, _, hsrcSpace, hdstSpace, rfl, rfl⟩ :=
      Registry.foldLink_of_ok hsrc hdst hfold
    · exact .refl ..
    · exact ((PortBook.Grows.refl ..).allocate hsrcSpace (by simp)).allocate hdstSpace (by simp)

/-- A report gives out at most one port on each virtual device. -/
theorem length_ports_hear_le {n : Nat} (d : Domain) (r : Report)
    (hn : ∀ device space, Table.get? d.registry.ports device = some space →
      space.points.length ≤ n)
    {device : DeviceId} {space : PortSpace}
    (hspace : Table.get? (d.hear .implicit r).registry.ports device = some space) :
    space.points.length ≤ n + 1 := by
  have heffect := effect_hear d r
  generalize r.element? = element at heffect
  generalize d.hear .implicit r = d' at heffect hspace
  have hsame : d'.registry.ports = d.registry.ports → space.points.length ≤ n + 1 := by
    intro heq
    rw [heq] at hspace
    exact Nat.le_succ_of_le (hn device space hspace)
  cases heffect with
  | unread => exact hsame rfl
  | ignored => exact hsame rfl
  | failed entry hsrc hdst hne hfold =>
    obtain hleft | ⟨src, own, -, hown, hgiven⟩ :=
      Registry.stateAfter_foldLinkInPlace_of_error hfold
    · exact hsame (by rw [hleft])
    · simp only [hgiven] at hspace
      exact PortBook.length_set_allocate_le hown hn hspace
  | unknown => exact hsame rfl
  | thinned => exact hsame rfl
  | withdrawn => exact hsame rfl
  | unattached => exact hsame rfl
  | absorbed entry =>
    rcases PortBook.get?_openSpace hspace with hold | rfl
    · exact Nat.le_succ_of_le (hn device space hold)
    · exact Nat.zero_le _
  | attached entry hexpose =>
    obtain ⟨own, _, hown, _, rfl⟩ := Registry.exposePoint_of_ok hexpose
    exact PortBook.length_set_allocate_le hown hn hspace
  | folded entry hsrc hdst hne hfold =>
    obtain ⟨span, _, rfl, rfl⟩ | ⟨srcSpace, dstSpace, _, hsrcSpace, hdstSpace, rfl, rfl⟩ :=
      Registry.foldLink_of_ok hsrc hdst hfold
    · exact hsame rfl
    · change Table.get? (Table.set _ _ _) device = some space at hspace
      rw [Table.get?_set] at hspace
      split at hspace
      · obtain rfl := Option.some.inj hspace
        rw [Table.get?_set, if_neg hne] at hdstSpace
        exact Nat.le_trans (PortSpace.length_allocate_le _ _) (Nat.succ_le_succ (hn _ _ hdstSpace))
      · exact PortBook.length_set_allocate_le hsrcSpace hn hspace

theorem folds_iff {real : Ends} {pair : DevicePair} :
    Folds d r real pair ↔ r.adds? = some real ∧ Joins d real.heading pair := by
  rw [joins_iff]
  rfl

/-- A pair whose virtual link is there after a report had it before, or was folded for the first time. -/
theorem span_hear (h : Coherent d) (r : Report) {pair : DevicePair} {span : Ends}
    (hspan : Table.get? (d.hear .implicit r).registry.links.spans pair = some span) :
    Table.get? d.registry.links.spans pair = some span ∨
      Table.get? d.registry.links.spans pair = none ∧ ∃ real, Folds d r real pair ∧
        (d.hear .implicit r).registry.ports.Holds span.src real.src ∧
        (d.hear .implicit r).registry.ports.Holds span.dst real.dst := by
  have hstep := h.bookStep_hear r
  generalize (d.hear .implicit r).registry = registry at hstep hspan ⊢
  cases hstep with
  | still hbook => exact .inl (hbook ▸ hspan)
  | disconnected real => exact .inl (LinkBook.spans_disconnect d.registry.links real ▸ hspan)
  | @recorded real a b ports spans entered hadds hbridge hentered hpair hkeep hold hnew =>
    rw [LinkBook.spans_record_of_some (hpair.symm ▸ hentered)] at hspan
    by_cases hhere : pair = .of a b
    · subst hhere
      obtain rfl : entered = span := Option.some.inj (hentered.symm.trans hspan)
      cases hbefore : Table.get? d.registry.links.spans (.of a b) with
      | some s => exact .inl (congrArg some (hold s hbefore).1)
      | none =>
        have hfolds : Folds d r real (.of a b) := folds_iff.2 ⟨hadds, by simp [Joins, hbridge]⟩
        exact .inr ⟨rfl, real, hfolds, hnew hbefore⟩
    · exact .inl (hkeep pair hhere ▸ hspan)

/-- A pair without a virtual link after a report had none before, and was not folded. -/
theorem no_span_hear (h : Coherent d) (r : Report) {pair : DevicePair}
    (hnone : Table.get? (d.hear .implicit r).registry.links.spans pair = none) :
    Table.get? d.registry.links.spans pair = none ∧ ∀ real, ¬ Folds d r real pair := by
  have hstep := h.bookStep_hear r
  generalize (d.hear .implicit r).registry = registry at hstep hnone ⊢
  cases hstep with
  | still hbook hsame hadded =>
    refine ⟨hbook ▸ hnone, fun real hfolds => ?_⟩
    obtain ⟨hadds, hjoins⟩ := folds_iff.1 hfolds
    simp [Joins, hadded real.heading (Report.told?_eq_added.2 ⟨real, hadds, rfl⟩)] at hjoins
  | disconnected lost htold =>
    refine ⟨LinkBook.spans_disconnect d.registry.links lost ▸ hnone, fun real hfolds => ?_⟩
    simp [Report.told?_eq_added.2 ⟨real, hfolds.1, rfl⟩] at htold
  | @recorded added a b ports spans entered hadds hbridge hentered hpair hkeep =>
    rw [LinkBook.spans_record_of_some (hpair.symm ▸ hentered)] at hnone
    have hother : pair ≠ .of a b := by
      rintro rfl
      cases hentered.symm.trans hnone
    refine ⟨hkeep pair hother ▸ hnone, fun real hfolds => ?_⟩
    obtain ⟨hreal, hjoins⟩ := folds_iff.1 hfolds
    obtain rfl : added = real := Option.some.inj (hadds.symm.trans hreal)
    simp only [Joins, hbridge, Option.map_some, Option.some.injEq] at hjoins
    exact hother hjoins.symm

/-- A flag that is set after a report was set by it, or was set before and not concerned by it. -/
theorem flag_hear (h : Coherent d) (r : Report) {pair : DevicePair} {heading : Heading}
    (hflag : (d.hear .implicit r).registry.links.flag? pair heading = some true) :
    (∃ real, Folds d r real pair ∧ real.heading = heading ∧
      Serves (d.hear .implicit r) heading pair) ∨
    (d.registry.links.flag? pair heading = some true ∧
      (∀ lost, r.removes? = some lost → lost.heading = heading → ¬ Serves d heading pair) ∧
      (Serves d heading pair → Serves (d.hear .implicit r) heading pair ∨
        ∃ real other, Folds d r real other ∧ real.heading = heading ∧ other ≠ pair)) := by
  have hserves := h.serves_hear r pair heading
  rw [h.flag?_hear] at hflag
  by_cases hadded : r.told? = some (heading, .added) ∧ Joins d heading pair
  · obtain ⟨htold, hjoins⟩ := hadded
    obtain ⟨real, hadds, rfl⟩ := Report.told?_eq_added.1 htold
    have hbridge : (d.registry.bridge? real.heading).isSome := by
      rw [← Option.isSome_map]
      exact Option.isSome_of_mem hjoins
    rw [if_pos ⟨htold, hbridge⟩] at hserves
    exact .inl ⟨real, folds_iff.2 ⟨hadds, hjoins⟩, rfl, hserves.2 hjoins⟩
  · rw [if_neg hadded] at hflag
    by_cases hremoved : r.told? = some (heading, .removed) ∧ Serves d heading pair
    · simp [hremoved] at hflag
    · rw [if_neg hremoved] at hflag
      refine .inr ⟨hflag, ?_, fun hbefore => ?_⟩
      · intro lost hlost hheading hbefore
        exact hremoved ⟨Report.told?_eq_removed.2 ⟨lost, hlost, hheading⟩, hbefore⟩
      · by_cases hmoved : r.told? = some (heading, .added) ∧ (d.registry.bridge? heading).isSome
        · obtain ⟨htold, hbridge⟩ := hmoved
          obtain ⟨real, hadds, rfl⟩ := Report.told?_eq_added.1 htold
          obtain ⟨ends, hends⟩ := Option.isSome_iff_exists.1 hbridge
          have hjoins : Joins d real.heading (.of ends.1 ends.2) := by simp [Joins, hends]
          refine .inr ⟨real, _, folds_iff.2 ⟨hadds, hjoins⟩, rfl, ?_⟩
          rintro rfl
          exact hadded ⟨htold, hjoins⟩
        · rw [if_neg hmoved] at hserves
          exact .inl (hserves.2 hbefore)

/-! ### What every run keeps -/

/-- A fold for the pair that keeps a flag set: no loss has undone it, and links with the heading
still carry the pair's virtual link unless they were folded for another pair. -/
def Upheld (reports : List Report) (d : Domain) (pair : DevicePair) (heading : Heading) : Prop :=
  ∃ before r rest real, reports = before ++ r :: rest ∧ Folds (after before) r real pair ∧
    real.heading = heading ∧
    (∀ mid x rest' lost, rest = mid ++ x :: rest' → x.removes? = some lost →
      lost.heading = heading → Moved (before ++ [r]) mid pair heading) ∧
    (Serves d heading pair ∨ Moved (before ++ [r]) rest pair heading)

/-- The invariant of a domain and the reports that it has heard. -/
structure Footed (reports : List Report) (d : Domain) : Prop where
  coherent : Coherent d
  length_le : ∀ device space, Table.get? d.registry.ports device = some space →
    space.points.length ≤ reports.length
  /-- The ports of a virtual link stand for the ends of the first real link of its pair. -/
  first_of_span : ∀ pair span, Table.get? d.registry.links.spans pair = some span →
    ∃ real, FirstFold reports pair real ∧
      d.registry.ports.Holds span.src real.src ∧ d.registry.ports.Holds span.dst real.dst
  /-- A pair without a virtual link has had no fold. -/
  not_folds_of_none : ∀ pair, Table.get? d.registry.links.spans pair = none →
    ∀ before r rest real, reports = before ++ r :: rest → ¬ Folds (after before) r real pair
  upheld_of_flag : ∀ pair heading, d.registry.links.flag? pair heading = some true →
    Upheld reports d pair heading

theorem footed_empty : Footed [] .empty where
  coherent := coherent_empty
  length_le _ _ h := nomatch (h : none = some _)
  first_of_span _ _ h := nomatch (h : none = some _)
  not_folds_of_none _ _ before r rest _ h := by simp at h
  upheld_of_flag _ _ h := nomatch (h : none = some _)

theorem Upheld.hear {reports : List Report} {pair : DevicePair} {heading : Heading}
    (h : Upheld reports (after reports) pair heading) (r : Report)
    (hnot : ∀ lost, r.removes? = some lost → lost.heading = heading →
      ¬ Serves (after reports) heading pair)
    (hserves : Serves (after reports) heading pair →
      Serves ((after reports).hear .implicit r) heading pair ∨
        ∃ real other, Folds (after reports) r real other ∧ real.heading = heading ∧ other ≠ pair) :
    Upheld (reports ++ [r]) ((after reports).hear .implicit r) pair heading := by
  obtain ⟨before, q, rest, real, hsplit, hfolds, hheading, hundone, hstill⟩ := h
  have hbefore : before ++ [q] ++ rest = reports := by rw [hsplit]; simp
  refine ⟨before, q, rest ++ [r], real, by rw [hsplit]; simp, hfolds, hheading, ?_, ?_⟩
  · intro mid x rest' lost hmid hremoves hlost
    rcases concat_eq_split hmid with ⟨rest'', hrest⟩ | ⟨hrest, hx, _⟩
    · exact hundone mid x rest'' lost hrest hremoves hlost
    · rw [← hx] at hremoves
      rw [← hrest]
      exact hstill.resolve_left (hnot lost hremoves hlost)
  · rcases hstill with hstill | hmoved
    · rcases hserves hstill with hserves | ⟨real', other, hfold, hreal', hother⟩
      · exact Or.inl hserves
      · refine Or.inr ⟨rest, r, [], real', other, rfl, ?_, hreal', hother⟩
        rwa [hbefore]
    · exact Or.inr (hmoved.concat r)

theorem footed_hear {reports : List Report} (h : Footed reports (after reports)) (r : Report) :
    Footed (reports ++ [r]) ((after reports).hear .implicit r) := by
  have hgrows := ports_grow (after reports) r
  constructor
  case coherent => exact coherent_hear h.coherent r
  case length_le =>
    intro device space hspace
    rw [List.length_append, List.length_singleton]
    exact length_ports_hear_le (after reports) r h.length_le hspace
  case first_of_span =>
    intro pair span hspan
    rcases span_hear h.coherent r hspan with hold | ⟨hnone, real, hfolds, hports⟩
    · obtain ⟨real, hfirst, hsrc, hdst⟩ := h.first_of_span pair span hold
      exact ⟨real, hfirst.concat r, hgrows.holds hsrc, hgrows.holds hdst⟩
    · refine ⟨real, ⟨reports, r, [], rfl, hfolds, ?_⟩, hports⟩
      intro before r' rest real' hsplit
      exact h.not_folds_of_none pair hnone before r' rest real' hsplit
  case not_folds_of_none =>
    intro pair hnone before q rest real hsplit
    obtain ⟨hnone', hno⟩ := no_span_hear h.coherent r hnone
    rcases concat_eq_split hsplit with ⟨rest', hreports⟩ | ⟨rfl, rfl, _⟩
    · exact h.not_folds_of_none pair hnone' before q rest' real hreports
    · exact hno real
  case upheld_of_flag =>
    intro pair heading hflag
    rcases flag_hear h.coherent r hflag with
      ⟨real, hfolds, hheading, hserves⟩ | ⟨hold, hnot, hstill⟩
    · refine ⟨reports, r, [], real, rfl, hfolds, hheading, ?_, Or.inl hserves⟩
      intro mid x rest' lost hsplit
      simp at hsplit
    · exact (h.upheld_of_flag pair heading hold).hear r hnot hstill

theorem footed_after (reports : List Report) : Footed reports (after reports) := by
  refine Domain.hearAll_induction (motive := Footed) footed_empty ?_ reports
  intro reports r h
  exact footed_hear h r

theorem Stands.of_upheld {reports : List Report} {pair : DevicePair} {heading : Heading}
    (h : Upheld reports d pair heading) : Stands reports pair heading := by
  obtain ⟨before, r, rest, real, hsplit, hfolds, hheading, hundone, _⟩ := h
  exact ⟨before, r, rest, real, hsplit, hfolds, hheading, hundone⟩

theorem Footed.behind?_span {reports : List Report} {pair : DevicePair} {span : Ends}
    (h : Footed reports d) (hshort : reports.length < 2 ^ 64)
    (hspan : Table.get? d.registry.links.spans pair = some span) :
    ∃ real, FirstFold reports pair real ∧ d.registry.behind? span = some real ∧
      d.registry.behind? span.inverted = some real.inverted := by
  obtain ⟨real, hfirst, hsrc, hdst⟩ := h.first_of_span pair span hspan
  have hlength : ∀ device space, Table.get? d.registry.ports device = some space →
      space.points.length < 2 ^ 64 :=
    fun device space hspace => Nat.lt_of_le_of_lt (h.length_le device space hspace) hshort
  have hbehindSrc : d.registry.resolve? span.src.device span.src.port = some real.src :=
    hsrc.resolve? hlength
  have hbehindDst : d.registry.resolve? span.dst.device span.dst.port = some real.dst :=
    hdst.resolve? hlength
  refine ⟨real, hfirst, ?_, ?_⟩
  · simp [Registry.behind?, hbehindSrc, hbehindDst]
  · simp [Registry.behind?, Ends.inverted, hbehindSrc, hbehindDst]

/-- **What a shown link stands on.** After any documents with fewer elements than there are port
numbers, the ports of a shown link lead back to the first real link that was folded for its pair of
virtual devices, lost or not; and some real link folded for the pair has not been reported lost
since, unless it was folded for another pair before that. -/
theorem shown_link_footing (letters : List Letter) (hshort : (reportsOf letters).length < 2 ^ 64) :
    let d := Domain.afterLetters .implicit letters
    ∀ l ∈ d.topology.links.items,
      (∃ real, FirstFold (reportsOf letters) l.ends.pair real ∧
        (d.registry.behind? l.ends = some real ∨ d.registry.behind? l.ends = some real.inverted)) ∧
      ∃ heading, Stands (reportsOf letters) l.ends.pair heading := by
  intro d l hl
  have h : Footed (reportsOf letters) d := by
    rw [show d = _ from Domain.afterLetters_eq_hearAll letters]
    exact footed_after _
  obtain ⟨_, ⟨span, hspan, hends⟩, hup⟩ := h.coherent.mem_links_iff.1 hl
  obtain ⟨real, hfirst, hthere, hback⟩ := h.behind?_span hshort hspan
  obtain ⟨heading, hflag⟩ := LinkBook.isUp_iff_flag?.1 hup
  refine ⟨⟨real, hfirst, ?_⟩, heading, .of_upheld (h.upheld_of_flag _ heading hflag)⟩
  rcases hends with he | he
  · exact Or.inl (he ▸ hthere)
  · exact Or.inr (he ▸ hback)

/-! ### The ports outlive the link that they were made for

Two children are joined by two real links, and the first of the two is lost. The virtual link stays,
carried by the second, and its ports still lead to the first. -/

/-- The real links that were reported added and not reported lost since, one report further. -/
def settle (standing : List Ends) (r : Report) : List Ends :=
  match r.adds?, r.removes? with
  | some real, _ => real :: standing
  | none, some lost => standing.filter (· ≠ lost)
  | none, none => standing

/-- The real links that were reported added and have not been reported lost since. -/
def outstanding (reports : List Report) : List Ends := reports.foldl settle []

/-- A device as a child sends it. -/
def sentDevice (id : String) : Json := DeviceEntry.toJson { id := ⟨id⟩ }

/-- A link as a child sends it. -/
def sentLink (src : String) (srcPort : PortNumber) (dst : String) (dstPort : PortNumber) : Json :=
  LinkEntry.toJson { ends := ⟨⟨⟨src⟩, srcPort⟩, ⟨⟨dst⟩, dstPort⟩⟩ }

/-- Two links between the children `a` and `b`, of which the first is lost. -/
def firstLinkLost : List Letter :=
  [⟨"a", .devices [sentDevice "of:1", sentDevice "of:2"]⟩,
   ⟨"b", .devices [sentDevice "of:3", sentDevice "of:4"]⟩,
   ⟨"a", .links [sentLink "of:2" 3 "of:3" 3, sentLink "of:1" 4 "of:4" 4]⟩,
   ⟨"a", .edgeUpdates ⟨[], [sentLink "of:2" 3 "of:3" 3]⟩⟩]

/-- The ports of a shown link need not lead to a real link that is still there. -/
theorem shown_link_with_lost_ends :
    ∃ l ∈ (Domain.afterLetters .implicit firstLinkLost).topology.links.items,
      l.src.device ≠ l.dst.device ∧
      ∀ real ∈ outstanding (reportsOf firstLinkLost),
        (Domain.afterLetters .implicit firstLinkLost).registry.behind? l.ends ≠ some real ∧
        (Domain.afterLetters .implicit firstLinkLost).registry.behind? l.ends ≠
          some real.inverted := by
  decide +kernel

theorem shown_link_footing_firstLinkLost :
    (reportsOf firstLinkLost).length < 2 ^ 64 ∧
    (Domain.afterLetters .implicit firstLinkLost).topology.links.size = 2 ∧
    ∀ l ∈ (Domain.afterLetters .implicit firstLinkLost).topology.links.items,
      (∃ real, FirstFold (reportsOf firstLinkLost) l.ends.pair real ∧
        ((Domain.afterLetters .implicit firstLinkLost).registry.behind? l.ends = some real ∨
          (Domain.afterLetters .implicit firstLinkLost).registry.behind? l.ends =
            some real.inverted)) ∧
      ∃ heading, Stands (reportsOf firstLinkLost) l.ends.pair heading :=
  have hshort : (reportsOf firstLinkLost).length < 2 ^ 64 := by decide +kernel
  ⟨hshort, by decide +kernel, shown_link_footing firstLinkLost hshort⟩

end Implicit

end Multidomain
