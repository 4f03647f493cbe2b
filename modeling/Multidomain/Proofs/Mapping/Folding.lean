import Mathlib.Data.List.Induction
import Multidomain.Proofs.Mapping.InPlace
import Multidomain.Proofs.Mapping.PortBook
import Multidomain.Proofs.Orchestration.History

/-!
# One virtual link for each pair

Whatever is mapped, allocated, folded and disconnected in whatever order, two virtual devices have one
virtual link. The first fold between them makes it, out of the ports that the two ends of the real link
hold from then on, and every later fold between them answers it again, from whichever side it comes.
What devices are mapped to may change meanwhile: a fold counts for the two virtual devices that its ends
belonged to when it was made. A fold can only fail for an end that belongs to no virtual device, and
then it leaves everything as it is.
-/

namespace Multidomain

/-- Something that is done to a registry where devices are mapped and links folded. -/
inductive RegistryOp where
  | mapDevice (device virtual : DeviceId)
  | allocatePort (virtual : DeviceId) (point : ConnectPoint)
  | exposePoint (point : ConnectPoint)
  | foldLink (real : Ends)
  | disconnectLink (real : Ends)
  deriving DecidableEq, Repr

/-- A fold that succeeded: the real link, the virtual devices that its ends belonged to at that time,
and the virtual link that it was folded into. -/
structure Folding where
  real : Ends
  src : DeviceId
  dst : DeviceId
  link : Ends
  deriving DecidableEq, Repr

namespace Folding

def pair (f : Folding) : DevicePair := .of f.src f.dst

/-- Folds of one pair that do not start at the same device start at the two devices of the pair. -/
theorem pair_of_ne {f g : Folding} (hpair : g.pair = f.pair) (hne : g.src ≠ f.src) :
    f.pair = .of f.src g.src := by
  obtain ⟨hsrc, -⟩ | ⟨hsrc, -⟩ := DevicePair.of_eq_of_iff.1 hpair
  · exact absurd hsrc hne
  · rw [hsrc]
    rfl

end Folding

namespace LinkBook

theorem seenFrom_src (link : Ends) : seenFrom link link.src.device = link := by
  simp [seenFrom, Ends.orientedFrom?]

/-- The two devices of a link see it the other way round. -/
theorem seenFrom_of_ne {link : Ends} {a b : DeviceId} (hpair : link.pair = .of a b) (hne : b ≠ a) :
    seenFrom link b = (seenFrom link a).inverted := by
  obtain ⟨rfl, rfl⟩ | ⟨rfl, rfl⟩ := DevicePair.of_eq_of_iff.1 hpair
  · simp [seenFrom, Ends.orientedFrom?, hne.symm]
  · simp [seenFrom, Ends.orientedFrom?, hne]

/-- A link is found from either of its devices. -/
theorem lookup?_of_span {b : LinkBook} {src dst : DeviceId} {span : Ends}
    (hspan : Table.get? b.spans (.of src dst) = some span) (hpair : span.pair = .of src dst) :
    b.lookup? src dst = some (seenFrom span src) := by
  have horiented : (span.orientedFrom? src).isSome := by
    obtain ⟨hsrc, -⟩ | ⟨-, hdst⟩ := DevicePair.of_eq_of_iff.1 hpair
    · rw [Ends.orientedFrom?, if_pos hsrc, Option.isSome_some]
    · by_cases hsrc : span.src.device = src <;> simp [Ends.orientedFrom?, hsrc, hdst]
  obtain ⟨link, hlink⟩ := Option.isSome_iff_exists.1 horiented
  rw [lookup?, hspan, Option.bind_some, seenFrom, hlink, Option.getD_some]

end LinkBook

namespace Registry

def act (r : Registry) : RegistryOp → Registry
  | .mapDevice device virtual => r.mapDevice device virtual
  | .allocatePort virtual point => stateAfter (allocatePortInPlace virtual point) r
  | .exposePoint point => stateAfter (exposePointInPlace point) r
  | .foldLink real => stateAfter (foldLinkInPlace real) r
  | .disconnectLink real => (r.disconnectLink real).1

/-- What operations make of the registry of a session that has heard nothing. -/
def after (ops : List RegistryOp) : Registry := ops.foldl act .empty

def Folds (r : Registry) (f : Folding) : Prop :=
  r.virtual? f.real.src.device = some f.src ∧ r.virtual? f.real.dst.device = some f.dst ∧
    (foldLinkInPlace f.real).run' r = some f.link

instance (r : Registry) (f : Folding) : Decidable (r.Folds f) :=
  inferInstanceAs (Decidable (_ ∧ _ ∧ _))

def Folded (ops : List RegistryOp) (f : Folding) : Prop :=
  ∃ before rest, ops = before ++ .foldLink f.real :: rest ∧ (after before).Folds f

/-- No fold before it was between the same two virtual devices. -/
def FirstFolded (ops : List RegistryOp) (f : Folding) : Prop :=
  ∃ before rest, ops = before ++ .foldLink f.real :: rest ∧ (after before).Folds f ∧
    ∀ g, Folded before g → g.pair ≠ f.pair

variable {r r' : Registry} {real link : Ends} {src dst : DeviceId}
variable {ops : List RegistryOp} {op : RegistryOp} {f : Folding}

theorem after_concat (ops : List RegistryOp) (op : RegistryOp) :
    after (ops ++ [op]) = (after ops).act op := by
  rw [after, List.foldl_append]
  rfl

theorem folded_concat : Folded (ops ++ [op]) f ↔
    Folded ops f ∨ op = .foldLink f.real ∧ (after ops).Folds f := by
  constructor
  · rintro ⟨before, rest, hops, hfolds⟩
    obtain ⟨rest', rfl⟩ | ⟨rfl, rfl, -⟩ := concat_eq_split hops
    · exact .inl ⟨before, rest', rfl, hfolds⟩
    · exact .inr ⟨rfl, hfolds⟩
  · rintro (⟨before, rest, rfl, hfolds⟩ | ⟨rfl, hfolds⟩)
    · exact ⟨before, rest ++ [op], by simp, hfolds⟩
    · exact ⟨ops, [], rfl, hfolds⟩

theorem FirstFolded.concat (h : FirstFolded ops f) (op : RegistryOp) :
    FirstFolded (ops ++ [op]) f := by
  obtain ⟨before, rest, rfl, hfolds, hfirst⟩ := h
  exact ⟨before, rest ++ [op], by simp, hfolds, hfirst⟩

/-! ### What one operation does -/

theorem folds_of_ok (hsrc : r.virtual? real.src.device = some src)
    (hdst : r.virtual? real.dst.device = some dst) (h : r.foldLink real = .ok (r', link)) :
    r.Folds ⟨real, src, dst, link⟩ := by
  refine ⟨hsrc, hdst, ?_⟩
  rw [(agrees_foldLink r real).answer, h]
  rfl

theorem Folds.eq (h : r.Folds f) (hsrc : r.virtual? f.real.src.device = some src)
    (hdst : r.virtual? f.real.dst.device = some dst)
    (hfold : r.foldLink f.real = .ok (r', link)) : f = ⟨f.real, src, dst, link⟩ := by
  obtain ⟨hsrc', hdst', hlink⟩ := h
  rw [(agrees_foldLink r f.real).answer, hfold] at hlink
  obtain rfl : src = f.src := Option.some.inj (hsrc.symm.trans hsrc')
  obtain rfl : dst = f.dst := Option.some.inj (hdst.symm.trans hdst')
  obtain rfl : link = f.link := Option.some.inj hlink
  rfl

/-- All that an operation can do to a registry in which mapped devices belong to open ones. -/
inductive Outcome (r : Registry) : RegistryOp → Registry → Prop
  | mapped (device virtual : DeviceId) :
    Outcome r (.mapDevice device virtual) (r.mapDevice device virtual)
  | given {op : RegistryOp} {virtual : DeviceId} {point : ConnectPoint} {space : PortSpace}
    (hop : ∀ real, op ≠ .foldLink real) (hspace : Table.get? r.ports virtual = some space) :
    Outcome r op { r with ports := Table.set r.ports virtual (space.allocate point) }
  | folded {real : Ends} {src dst : DeviceId} {r' : Registry} {link : Ends}
    (hsrc : r.virtual? real.src.device = some src) (hdst : r.virtual? real.dst.device = some dst)
    (hfold : r.foldLink real = .ok (r', link)) :
    Outcome r (.foldLink real) r'
  | disconnected (real : Ends) : Outcome r (.disconnectLink real) (r.disconnectLink real).1
  | failed {op : RegistryOp} (hop : ∀ f, op = .foldLink f.real → ¬ r.Folds f) : Outcome r op r

theorem Housed.outcome (h : r.Housed) (op : RegistryOp) : Outcome r op (r.act op) := by
  cases op with
  | mapDevice device virtual => exact .mapped device virtual
  | disconnectLink real => exact .disconnected real
  | allocatePort virtual point =>
    rw [act, stateAfter, run_allocatePortInPlace]
    cases hallocate : r.allocatePort virtual point with
    | error fault => exact .failed fun _ => by rintro ⟨⟩
    | ok answer =>
      obtain ⟨space, hspace, -, hresult⟩ := allocatePort_of_ok hallocate
      rw [inPlace, hresult]
      exact .given (fun _ => by rintro ⟨⟩) hspace
  | exposePoint point =>
    rw [act, stateAfter, run_exposePointInPlace]
    cases hexpose : r.exposePoint point with
    | error fault => exact .failed fun _ => by rintro ⟨⟩
    | ok answer =>
      obtain ⟨space, -, hspace, -, hresult⟩ := exposePoint_of_ok hexpose
      rw [inPlace, hresult]
      exact .given (fun _ => by rintro ⟨⟩) hspace
  | foldLink real =>
    cases hsrc : r.virtual? real.src.device with
    | none =>
      obtain ⟨fault, hrun⟩ := run_foldLinkInPlace_of_unmapped r real (.inl hsrc)
      rw [act, stateAfter, hrun]
      refine .failed ?_
      rintro f ⟨⟩ ⟨hmapped, -⟩
      cases hmapped.symm.trans hsrc
    | some src =>
      cases hdst : r.virtual? real.dst.device with
      | none =>
        obtain ⟨fault, hrun⟩ := run_foldLinkInPlace_of_unmapped r real (.inr hdst)
        rw [act, stateAfter, hrun]
        refine .failed ?_
        rintro f ⟨⟩ ⟨-, hmapped, -⟩
        cases hmapped.symm.trans hdst
      | some dst =>
        obtain ⟨r', link, hfold⟩ := h.exists_foldLink hsrc hdst
        rw [act, stateAfter, run_foldLinkInPlace_of_ok hfold]
        exact .folded hsrc hdst hfold

/-- What a fold makes of a registry: the pair has a virtual link, which the fold answers as seen from the
source and the real link carries, and where the pair had none its ports stand for the real ends. -/
structure FoldEffect (r : Registry) (real : Ends) (src dst : DeviceId) (r' : Registry) (link : Ends) :
    Prop where
  virtual? : ∀ device, r'.virtual? device = r.virtual? device
  isOpen : ∀ device, r'.ports.isOpen device = r.ports.isOpen device
  holds : ∀ {virtual point}, PortBook.Holds r.ports virtual point →
    PortBook.Holds r'.ports virtual point
  heading : link.heading = ⟨src, dst⟩
  answer : ∃ span, Table.get? r'.links.spans (.of src dst) = some span ∧
    link = LinkBook.seenFrom span src
  old : ∀ {pair span}, Table.get? r.links.spans pair = some span →
    Table.get? r'.links.spans pair = some span
  new : ∀ {pair span}, Table.get? r'.links.spans pair = some span →
    Table.get? r.links.spans pair = some span ∨
      Table.get? r.links.spans pair = none ∧ pair = .of src dst ∧ span = link ∧
        PortBook.Holds r'.ports link.src real.src ∧ PortBook.Holds r'.ports link.dst real.dst
  carried : ∀ heading, Table.get? r'.links.carried heading =
    if real.heading = heading then some link else Table.get? r.links.carried heading

theorem foldEffect
    (hpair : ∀ {span}, Table.get? r.links.spans (.of src dst) = some span → span.pair = .of src dst)
    (hsrc : r.virtual? real.src.device = some src) (hdst : r.virtual? real.dst.device = some dst)
    (hfold : r.foldLink real = .ok (r', link)) : FoldEffect r real src dst r' link := by
  obtain ⟨span, hspan, rfl, rfl⟩ | ⟨srcSpace, dstSpace, hnone, hsrcSpace, hdstSpace, rfl, rfl⟩ :=
    foldLink_of_ok hsrc hdst hfold
  · obtain ⟨hsrcDevice, hdstDevice, horientation⟩ := LinkBook.seenFrom_of_pair (hpair hspan)
    have hheading : (LinkBook.seenFrom span src).heading = ⟨src, dst⟩ := by
      rw [Ends.heading, hsrcDevice, hdstDevice]
    have hspans : (r.links.record real (LinkBook.seenFrom span src)).spans = r.links.spans := by
      rw [← Ends.pair_of_heading hheading] at hspan
      exact LinkBook.spans_record_of_some hspan
    exact {
      virtual? _ := rfl
      isOpen _ := rfl
      holds h := h
      heading := hheading
      answer := ⟨span, hspans ▸ hspan, rfl⟩
      old h := hspans ▸ h
      new h := .inl (hspans ▸ h)
      carried _ := LinkBook.get?_carried_record .. }
  · have hspans : (LinkBook.record
        { r.links with
          spans := Table.set r.links.spans (.of src dst) (firstLink src dst real srcSpace dstSpace) }
        real (firstLink src dst real srcSpace dstSpace)).spans
        = Table.set r.links.spans (.of src dst) (firstLink src dst real srcSpace dstSpace) :=
      LinkBook.spans_record_of_some (Table.get?_set_self ..)
    have hnew : ∀ {pair span},
        Table.get? (Table.set r.links.spans (.of src dst)
          (firstLink src dst real srcSpace dstSpace)) pair = some span →
        Table.get? r.links.spans pair = some span ∨
          pair = .of src dst ∧ span = firstLink src dst real srcSpace dstSpace := by
      intro pair span h
      rw [Table.get?_set] at h
      split at h
      · next hsame => exact .inr ⟨hsame.symm, (Option.some.inj h).symm⟩
      · exact .inl h
    exact {
      virtual? _ := rfl
      isOpen device := by
        rw [isOpen_set_of_some hdstSpace, isOpen_set_of_some hsrcSpace]
      holds h := (h.allocate hsrcSpace _).allocate hdstSpace _
      heading := rfl
      answer := by
        refine ⟨_, hspans ▸ Table.get?_set_self .., ?_⟩
        exact (LinkBook.seenFrom_src _).symm
      old {pair span} h := by
        have hne : DevicePair.of src dst ≠ pair := by
          rintro rfl
          cases h.symm.trans hnone
        rw [hspans, Table.get?_set, if_neg hne, h]
      new {pair span} h := by
        rw [hspans] at h
        obtain hold | ⟨rfl, rfl⟩ := hnew h
        · exact .inl hold
        · refine .inr ⟨hnone, rfl, rfl, ?_, ?_⟩
          · exact (PortBook.holds_allocate_self ..).allocate hdstSpace _
          · exact PortBook.holds_allocate_self ..
      carried _ := LinkBook.get?_carried_record .. }

/-! ### What a sequence of operations keeps -/

/-- What binds folds, virtual links and ports together after operations. -/
structure Bundled (ops : List RegistryOp) : Prop where
  /-- Devices belong to virtual devices that have a port space. -/
  isOpen : ∀ {device virtual}, (after ops).virtual? device = some virtual →
    (after ops).ports.isOpen virtual = true
  /-- The virtual link of a pair is that of the first fold, and its ports stand for the real ends. -/
  first : ∀ {pair span}, Table.get? (after ops).links.spans pair = some span →
    ∃ f, FirstFolded ops f ∧ f.pair = pair ∧ f.link = span ∧ span.heading = ⟨f.src, f.dst⟩ ∧
      PortBook.Holds (after ops).ports span.src f.real.src ∧
      PortBook.Holds (after ops).ports span.dst f.real.dst
  /-- Every fold answered the virtual link of its pair. -/
  folded : ∀ {f}, Folded ops f → ∃ span,
    Table.get? (after ops).links.spans f.pair = some span ∧ f.link = LinkBook.seenFrom span f.src
  /-- Every real link carries the virtual link of a pair. -/
  carried : ∀ {heading link}, Table.get? (after ops).links.carried heading = some link →
    ∃ span, Table.get? (after ops).links.spans link.pair = some span ∧
      link = LinkBook.seenFrom span link.src.device

theorem bundled_empty : Bundled [] where
  isOpen h := nomatch (h : none = some _)
  first h := nomatch (h : none = some _)
  folded h := by
    obtain ⟨before, rest, hops, -⟩ := h
    simp at hops
  carried h := nomatch (h : none = some _)

theorem Bundled.pair_of_span {pair : DevicePair} {span : Ends} (h : Bundled ops)
    (hspan : Table.get? (after ops).links.spans pair = some span) : span.pair = pair := by
  obtain ⟨f, -, hpair, -, hheading, -⟩ := h.first hspan
  exact (Ends.pair_of_heading hheading).trans hpair

/-- Operations that do not fold leave the links of pairs as they are. -/
theorem Bundled.concat (h : Bundled ops) (hop : ∀ f, op = .foldLink f.real → ¬ (after ops).Folds f)
    (hafter : after (ops ++ [op]) = r)
    (hopen : ∀ {device virtual}, r.virtual? device = some virtual → r.ports.isOpen virtual = true)
    (hholds : ∀ {virtual real}, PortBook.Holds (after ops).ports virtual real →
      PortBook.Holds r.ports virtual real)
    (hspans : r.links.spans = (after ops).links.spans)
    (hcarried : r.links.carried = (after ops).links.carried) : Bundled (ops ++ [op]) := by
  subst hafter
  refine ⟨hopen, ?_, ?_, ?_⟩
  · intro pair span hspan
    rw [hspans] at hspan
    obtain ⟨f, hfirst, hpair, hlink, hheading, hsrc, hdst⟩ := h.first hspan
    exact ⟨f, hfirst.concat op, hpair, hlink, hheading, hholds hsrc, hholds hdst⟩
  · intro f hf
    obtain hold | ⟨hfold, hnow⟩ := folded_concat.1 hf
    · rw [hspans]
      exact h.folded hold
    · exact absurd hnow (hop f hfold)
  · intro heading link hlink
    rw [hcarried] at hlink
    rw [hspans]
    exact h.carried hlink

theorem Bundled.concat_folded (h : Bundled ops)
    (hsrc : (after ops).virtual? real.src.device = some src)
    (hdst : (after ops).virtual? real.dst.device = some dst)
    (hfold : (after ops).foldLink real = .ok (r', link))
    (hafter : after (ops ++ [.foldLink real]) = r') : Bundled (ops ++ [.foldLink real]) := by
  have heffect := foldEffect h.pair_of_span hsrc hdst hfold
  have hfolds : (after ops).Folds ⟨real, src, dst, link⟩ := folds_of_ok hsrc hdst hfold
  subst hafter
  refine ⟨?_, ?_, ?_, ?_⟩
  · intro device virtual hvirtual
    rw [heffect.virtual?] at hvirtual
    rw [heffect.isOpen]
    exact h.isOpen hvirtual
  · intro pair span hspan
    obtain hold | ⟨hnone, rfl, rfl, hsrcHolds, hdstHolds⟩ := heffect.new hspan
    · obtain ⟨f, hfirst, hpair, hlink, hheading, hsrcHolds, hdstHolds⟩ := h.first hold
      exact ⟨f, hfirst.concat _, hpair, hlink, hheading, heffect.holds hsrcHolds,
        heffect.holds hdstHolds⟩
    · refine ⟨⟨real, src, dst, span⟩, ⟨ops, [], rfl, hfolds, ?_⟩, rfl, rfl, heffect.heading,
        hsrcHolds, hdstHolds⟩
      -- a fold between the two devices before would have left a virtual link of the pair
      intro g hg hpair
      obtain ⟨span, hspan, -⟩ := h.folded hg
      rw [hpair] at hspan
      cases hspan.symm.trans hnone
  · intro f hf
    obtain hold | ⟨hreal, hnow⟩ := folded_concat.1 hf
    · obtain ⟨span, hspan, hlink⟩ := h.folded hold
      exact ⟨span, heffect.old hspan, hlink⟩
    · obtain rfl := RegistryOp.foldLink.inj hreal
      rw [hnow.eq hsrc hdst hfold]
      exact heffect.answer
  · intro heading carried hcarried
    rw [heffect.carried] at hcarried
    split at hcarried
    · obtain rfl := Option.some.inj hcarried
      obtain ⟨span, hspan, hlink⟩ := heffect.answer
      rw [Ends.pair_of_heading heffect.heading]
      refine ⟨span, hspan, ?_⟩
      rw [show link.src.device = src from congrArg Heading.source heffect.heading]
      exact hlink
    · obtain ⟨span, hspan, hlink⟩ := h.carried hcarried
      exact ⟨span, heffect.old hspan, hlink⟩

theorem bundled_after (ops : List RegistryOp) : Bundled ops := by
  induction ops using List.reverseRecOn with
  | nil => exact bundled_empty
  | append_singleton ops op ih =>
    have houtcome := Housed.outcome ⟨ih.isOpen⟩ op
    generalize hafter : (after ops).act op = r at houtcome
    rw [← after_concat] at hafter
    cases houtcome with
    | mapped device virtual =>
      refine ih.concat nofun hafter ?_ (fun h => h.openSpace virtual) rfl rfl
      intro other target htarget
      rw [virtual?_mapDevice] at htarget
      refine (isOpen_openSpace ..).trans ?_
      split at htarget
      · obtain rfl := Option.some.inj htarget
        simp
      · simp [ih.isOpen htarget]
    | given hop hspace =>
      refine ih.concat (fun f hf => absurd hf (hop f.real)) hafter ?_ (fun h => h.allocate hspace _)
        rfl rfl
      intro other target htarget
      rw [isOpen_set_of_some hspace]
      exact ih.isOpen htarget
    | disconnected real =>
      exact ih.concat nofun hafter ih.isOpen id (LinkBook.spans_disconnect ..)
        (LinkBook.carried_disconnect ..)
    | failed hop => exact ih.concat hop hafter ih.isOpen id rfl rfl
    | folded hsrc hdst hfold => exact ih.concat_folded hsrc hdst hfold hafter

theorem Bundled.fails_iff (h : Bundled ops) :
    (∃ fault r', (foldLinkInPlace real).run (after ops) = .error fault r') ↔
      (after ops).virtual? real.src.device = none ∨ (after ops).virtual? real.dst.device = none := by
  constructor
  · rintro ⟨fault, r', hrun⟩
    by_contra hmapped
    obtain ⟨hsrc, hdst⟩ := not_or.1 hmapped
    obtain ⟨src, hsrc⟩ := Option.ne_none_iff_exists'.1 hsrc
    obtain ⟨dst, hdst⟩ := Option.ne_none_iff_exists'.1 hdst
    obtain ⟨r', link, hfold⟩ := Housed.exists_foldLink ⟨h.isOpen⟩ hsrc hdst
    cases hrun.symm.trans (run_foldLinkInPlace_of_ok hfold)
  · intro hunmapped
    obtain ⟨fault, hrun⟩ := run_foldLinkInPlace_of_unmapped _ _ hunmapped
    exact ⟨fault, _, hrun⟩

theorem Bundled.eq_of_fault (h : Bundled ops) {fault : TableFault}
    (hrun : (foldLinkInPlace real).run (after ops) = .error fault r') : r' = after ops := by
  obtain ⟨fault', hrun'⟩ := run_foldLinkInPlace_of_unmapped _ _ (h.fails_iff.1 ⟨fault, r', hrun⟩)
  exact (EStateM.Result.error.inj (hrun.symm.trans hrun')).2

/-- Two virtual devices have one virtual link, whatever is done in whatever order. A fold fails only
where an end is unmapped, and changes nothing then. All folds between two virtual devices answer the same
link, each from its own side, and while the 64 bits of port numbers suffice its ports lead to the ends of
the real link that was folded first. What a real link carries is the virtual link that its devices have,
seen from either of them. -/
theorem one_link_per_pair (ops : List RegistryOp) :
    let r := after ops
    (∀ real, ((∃ fault r', (foldLinkInPlace real).run r = .error fault r') ↔
          r.virtual? real.src.device = none ∨ r.virtual? real.dst.device = none)
        ∧ ∀ fault r', (foldLinkInPlace real).run r = .error fault r' → r' = r)
    ∧ (∀ f, Folded ops f → f.link.heading = ⟨f.src, f.dst⟩
        ∧ ∀ g, Folded ops g → g.pair = f.pair →
          g.link = if g.src = f.src then f.link else f.link.inverted)
    ∧ (∀ f, Folded ops f → ∃ first, FirstFolded ops first ∧ first.pair = f.pair
        ∧ ((∀ device space, Table.get? r.ports device = some space → space.points.length < 2 ^ 64) →
          let real := if f.src = first.src then first.real else first.real.inverted
          r.resolve? f.link.src.device f.link.src.port = some real.src
            ∧ r.resolve? f.link.dst.device f.link.dst.port = some real.dst))
    ∧ (∀ real link, r.links.carriedBy? real = some link →
        r.links.lookup? link.src.device link.dst.device = some link
        ∧ (link.src.device ≠ link.dst.device →
          r.links.lookup? link.dst.device link.src.device = some link.inverted)) := by
  have h := bundled_after ops
  refine ⟨fun real => ?_, fun f hf => ?_, fun f hf => ?_, fun real link hcarried => ?_⟩
  · exact ⟨h.fails_iff, fun fault r' => h.eq_of_fault⟩
  · obtain ⟨span, hspan, hlink⟩ := h.folded hf
    have hpair := h.pair_of_span hspan
    obtain ⟨hsrc, hdst, -⟩ := LinkBook.seenFrom_of_pair hpair
    refine ⟨by rw [hlink, Ends.heading, hsrc, hdst], fun g hg hsame => ?_⟩
    obtain ⟨span', hspan', hlink'⟩ := h.folded hg
    rw [hsame, hspan] at hspan'
    obtain rfl := Option.some.inj hspan'
    rw [hlink, hlink']
    split
    · next hsrc => rw [hsrc]
    · next hne => exact LinkBook.seenFrom_of_ne (hpair.trans (Folding.pair_of_ne hsame hne)) hne
  · obtain ⟨span, hspan, hlink⟩ := h.folded hf
    obtain ⟨first, hfirst, hpair, rfl, hheading, hsrc, hdst⟩ := h.first hspan
    have hsrcDevice : first.link.src.device = first.src := congrArg Heading.source hheading
    refine ⟨first, hfirst, hpair, fun hfew => ?_⟩
    have hthere := hsrc.resolve? hfew
    have hback := hdst.resolve? hfew
    intro real
    by_cases hsame : f.src = first.src
    · rw [hlink, hsame, ← hsrcDevice, LinkBook.seenFrom_src, show real = first.real from if_pos hsame]
      exact ⟨hthere, hback⟩
    · have hfirstPair := (Ends.pair_of_heading hheading).trans (Folding.pair_of_ne hpair.symm hsame)
      rw [hlink, LinkBook.seenFrom_of_ne hfirstPair hsame, ← hsrcDevice, LinkBook.seenFrom_src,
        show real = first.real.inverted from if_neg hsame]
      exact ⟨hback, hthere⟩
  · obtain ⟨span, hspan, hlink⟩ := h.carried hcarried
    have hpair := h.pair_of_span hspan
    constructor
    · rw [LinkBook.lookup?_of_span hspan hpair, ← hlink]
    · intro hne
      have hcomm := DevicePair.of_comm link.src.device link.dst.device
      rw [LinkBook.lookup?_of_span (hcomm ▸ hspan) (hpair.trans hcomm),
        LinkBook.seenFrom_of_ne hpair hne.symm, ← hlink]

/-- A second real link between the two devices, reported from the other side, after one of the real
devices has been mapped elsewhere and the first real link has been disconnected. -/
theorem one_link_per_pair_otherSide :
    let a : DeviceId := ⟨"imvs:a"⟩
    let b : DeviceId := ⟨"imvs:b"⟩
    let there : Ends := ⟨⟨⟨"of:1"⟩, 7⟩, ⟨⟨"of:2"⟩, 8⟩⟩
    let back : Ends := ⟨⟨⟨"of:3"⟩, 9⟩, ⟨⟨"of:1"⟩, 10⟩⟩
    let ops : List RegistryOp :=
      [.mapDevice ⟨"of:1"⟩ a, .mapDevice ⟨"of:2"⟩ b, .foldLink there, .mapDevice ⟨"of:2"⟩ a,
        .mapDevice ⟨"of:3"⟩ b, .disconnectLink there, .foldLink back]
    Folded ops ⟨back, b, a, ⟨⟨b, 1⟩, ⟨a, 1⟩⟩⟩ ∧
      ∃ first, FirstFolded ops first ∧ first.pair = .of b a ∧
        let real := if b = first.src then first.real else first.real.inverted
        (after ops).resolve? b 1 = some real.src ∧ (after ops).resolve? a 1 = some real.dst := by
  intro a b there back ops
  have hfolded : Folded ops ⟨back, b, a, ⟨⟨b, 1⟩, ⟨a, 1⟩⟩⟩ :=
    ⟨ops.dropLast, [], rfl, by decide +kernel⟩
  have hfew : ∀ entry ∈ (after ops).ports.items, entry.2.points.length < 2 ^ 64 := by decide +kernel
  obtain ⟨-, -, hends, -⟩ := one_link_per_pair ops
  obtain ⟨first, hfirst, hpair, hreal⟩ := hends _ hfolded
  exact ⟨hfolded, first, hfirst, hpair,
    hreal fun _ _ hspace => hfew _ (Table.get?_eq_some_iff.1 hspace)⟩

end Registry

end Multidomain
