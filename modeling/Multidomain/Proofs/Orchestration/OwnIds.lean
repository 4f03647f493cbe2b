import Multidomain.Proofs.Orchestration.GivenIds

/-!
# The ids that a node gives out

A node keeps two sorts of device ids: those under which its children know their devices, which may be
any, and those under which it shows these devices itself. Under one abstraction all ids of the second
sort carry one scheme, wherever they stand, and whatever the other abstraction would use stays empty.
-/

namespace Multidomain

/-- The id carries the scheme of the abstraction. -/
def DeviceId.Under (mode : Abstraction) (id : DeviceId) : Prop :=
  id.orchestratedScheme? = some mode.scheme

theorem Ends.Names.pair {P : DeviceId → Prop} {e : Ends} (h : e.Names P) :
    P e.pair.low ∧ P e.pair.high := by
  unfold Ends.pair DevicePair.of
  split
  · exact h
  · exact h.symm

namespace Registry

/-- What only the other abstraction uses is empty. -/
def Spares : Abstraction → Registry → Prop
  | .explicit, r => r.virtuals = .empty ∧ r.ports = .empty ∧ r.links = .empty ∧ r.hosts = .empty ∧
      r.virtualHosts = .empty
  | .implicit, r => r.natives = .empty ∧ r.aliases = .empty

/-- The registry has nothing of the other abstraction, and every id that stands in it for a device of
the node, rather than for what a child calls one of its own, carries the scheme of the abstraction. -/
structure Under (mode : Abstraction) (r : Registry) : Prop where
  spares : r.Spares mode
  owned : ∀ {device child}, r.owner? device = some child → device.Under mode
  named : ∀ {explicit native}, r.native? explicit = some native → explicit.Under mode
  known : ∀ {native explicit}, r.explicit? native = some explicit → explicit.Under mode
  virtual : ∀ {device virtual}, r.virtual? device = some virtual → virtual.Under mode
  space : ∀ {device}, r.ports.isOpen device = true → device.Under mode
  span : ∀ {pair span}, Table.get? r.links.spans pair = some span → span.Names (DeviceId.Under mode)
  carried : ∀ {heading link}, Table.get? r.links.carried heading = some link →
    link.Names (DeviceId.Under mode)
  backed : ∀ {pair}, r.links.backers.contains pair = true →
    pair.low.Under mode ∧ pair.high.Under mode
  place : ∀ {real place}, Table.get? r.hosts real = some place → place.location.device.Under mode
  shown : ∀ {place real}, Table.get? r.virtualHosts place = some real →
    place.location.device.Under mode

variable {r : Registry} {mode : Abstraction}

theorem under_empty (mode : Abstraction) : Under mode .empty where
  spares := by
    cases mode
    · exact ⟨rfl, rfl, rfl, rfl, rfl⟩
    · exact ⟨rfl, rfl⟩
  owned h := nomatch (h : none = _)
  named h := nomatch (h : none = _)
  known h := nomatch (h : none = _)
  virtual h := nomatch (h : none = _)
  space h := nomatch (h : false = _)
  span h := nomatch (h : none = _)
  carried h := nomatch (h : none = _)
  backed h := nomatch (h : false = _)
  place h := nomatch (h : none = _)
  shown h := nomatch (h : none = _)

theorem Under.setOwner {device : DeviceId} (h : r.Under mode) (hdevice : device.Under mode)
    (child : String) : (r.setOwner device child).Under mode :=
  { h with
    spares := by
      cases mode
      · exact h.spares
      · exact h.spares
    owned := by
      intro other owner howner
      rw [owner?_setOwner] at howner
      split at howner
      · next hsame => exact hsame ▸ hdevice
      · exact h.owned howner }

theorem Under.setAlias {explicit : DeviceId} (h : r.Under .explicit)
    (hexplicit : explicit.Under .explicit) (native : DeviceId) :
    (r.setAlias explicit native).Under .explicit :=
  { h with
    named := by
      intro other known hknown
      rw [native?_setAlias] at hknown
      split at hknown
      · next hsame => exact hsame ▸ hexplicit
      · exact h.named hknown
    known := by
      intro known other hother
      rw [explicit?_setAlias] at hother
      split at hother
      · exact Option.some.inj hother ▸ hexplicit
      · split at hother
        · cases hother
        · exact h.known hother }

theorem Under.mapDevice {virtual : DeviceId} (h : r.Under .implicit)
    (hvirtual : virtual.Under .implicit) (device : DeviceId) :
    (r.mapDevice device virtual).Under .implicit :=
  { h with
    virtual := by
      intro other known hknown
      rw [virtual?_mapDevice] at hknown
      split at hknown
      · exact Option.some.inj hknown ▸ hvirtual
      · exact h.virtual hknown
    space := by
      intro other hopen
      have hopen' := (isOpen_openSpace r.ports virtual other).symm.trans hopen
      rw [Bool.or_eq_true, beq_iff_eq] at hopen'
      obtain rfl | hold := hopen'
      · exact hvirtual
      · exact h.space hold }

theorem Under.setPort {device : DeviceId} {space : PortSpace} (h : r.Under .implicit)
    (hspace : Table.get? r.ports device = some space) (next : PortSpace) :
    Under .implicit { r with ports := Table.set r.ports device next } :=
  { h with
    space := by
      intro other hopen
      exact h.space ((isOpen_set_of_some hspace next other).symm.trans hopen) }

theorem Under.setSpan {span : Ends} (h : r.Under .implicit)
    (hspan : span.Names (DeviceId.Under .implicit)) (pair : DevicePair) :
    Under .implicit
      { r with links := { r.links with spans := Table.set r.links.spans pair span } } :=
  { h with
    span := by
      intro other known hknown
      have hknown' := (Table.get?_set r.links.spans pair span other).symm.trans hknown
      split at hknown'
      · exact Option.some.inj hknown' ▸ hspan
      · exact h.span hknown' }

theorem Under.record {link : Ends} (h : r.Under .implicit)
    (hlink : link.Names (DeviceId.Under .implicit)) (real : Ends) : Under .implicit { r with links := r.links.record real link } :=
  { h with
    span := by
      intro pair span hspan
      obtain hold | rfl := LinkBook.get?_spans_record hspan
      · exact h.span hold
      · exact hlink
    carried := by
      intro heading known hknown
      have hknown' := (Table.get?_set r.links.carried real.heading link heading).symm.trans hknown
      split at hknown'
      · exact Option.some.inj hknown' ▸ hlink
      · exact h.carried hknown'
    backed := by
      intro pair hbacked
      have hbacked' := (LinkBook.contains_backers_record r.links real link pair).symm.trans hbacked
      rw [Bool.or_eq_true, beq_iff_eq] at hbacked'
      obtain rfl | hold := hbacked'
      · exact hlink.pair
      · exact h.backed hold }

theorem Under.disconnect (h : r.Under .implicit) (real : Ends) :
    (r.disconnectLink real).1.Under .implicit :=
  { h with
    span := by
      intro pair span hspan
      exact h.span (LinkBook.spans_disconnect r.links real ▸ hspan)
    carried := by
      intro heading link hlink
      exact h.carried (LinkBook.carried_disconnect r.links real ▸ hlink)
    backed := by
      intro pair hbacked
      exact h.backed ((LinkBook.contains_backers_disconnect r.links real pair).symm.trans hbacked) }

theorem Under.recordHost {place : PinnedHost} (h : r.Under .implicit)
    (hplace : place.location.device.Under .implicit) (real : PinnedHost) :
    (r.recordHost real place).1.Under .implicit :=
  { h with
    place := by
      intro other known hknown
      have hknown' := (Table.get?_set r.hosts real place other).symm.trans hknown
      split at hknown'
      · exact Option.some.inj hknown' ▸ hplace
      · exact h.place hknown'
    shown := by
      intro known other hother
      have hother' := (Table.get?_set r.virtualHosts place real known).symm.trans hother
      split at hother'
      · next hsame => exact hsame ▸ hplace
      · exact h.shown hother' }

/-- A virtual link that a real one is folded into joins virtual devices. -/
theorem Under.foldLink {real link : Ends} {src dst : DeviceId} {r' : Registry}
    (h : r.Under .implicit) (hsrc : r.virtual? real.src.device = some src)
    (hdst : r.virtual? real.dst.device = some dst) (hfold : r.foldLink real = .ok (r', link)) :
    r'.Under .implicit := by
  obtain ⟨span, hspan, rfl, rfl⟩ | ⟨srcSpace, dstSpace, -, hsrcSpace, hdstSpace, rfl, rfl⟩ :=
    foldLink_of_ok hsrc hdst hfold
  · -- The pair of devices has a link already: the real one comes to back it, in its direction or the other.
    refine h.record ?_ real
    have hends := h.span hspan
    obtain heq | heq := LinkBook.seenFrom_eq_or span src
    · rwa [heq]
    · rw [heq]
      exact hends.inverted
  · -- It is the first between the two, and takes a port of each.
    have hlink : (firstLink src dst real srcSpace dstSpace).Names (DeviceId.Under .implicit) :=
      ⟨h.virtual hsrc, h.virtual hdst⟩
    have hports := (h.setPort hsrcSpace (srcSpace.allocate real.src)).setPort hdstSpace
      (dstSpace.allocate real.dst)
    exact (hports.setSpan hlink (.of src dst)).record hlink real

end Registry

namespace Domain

/-- All devices that the node shows, and all ids in its registry that stand for one, carry the scheme
of the abstraction. -/
structure Under (mode : Abstraction) (d : Domain) : Prop where
  registry : d.registry.Under mode
  topology : d.topology.Names (DeviceId.Under mode)

variable {d : Domain} {mode : Abstraction}

theorem registry_under_hear (h : d.registry.Under mode) (r : Report) :
    (d.hear mode r).registry.Under mode := by
  cases mode with
  | explicit =>
    obtain ⟨explicit, native, ⟨-, entry, -, -, hid⟩, hnamed⟩ | ⟨-, hsame⟩ :=
      Explicit.registry_hear d r
    · have hexplicit : explicit.Under .explicit := Explicit.orchestratedScheme?_of_toExplicit hid
      rw [hnamed]
      exact (h.setAlias hexplicit native).setOwner hexplicit r.child
    · rwa [hsame]
  | implicit =>
    have hvirtual : (ChildAddress.virtualDevice r.child).Under .implicit :=
      ChildAddress.orchestratedScheme?_virtualDevice r.child
    have heffect := Implicit.effect_hear d r
    generalize r.element? = element at heffect
    generalize d.hear .implicit r = d' at heffect ⊢
    cases heffect with
    | absorbed entry => exact (h.mapDevice hvirtual entry.id).setOwner hvirtual r.child
    | folded entry hsrc hdst hne hfold => exact h.foldLink hsrc hdst hfold
    | thinned entry => exact h.disconnect entry.ends
    | withdrawn entry => exact h.disconnect entry.ends
    | attached entry hexpose =>
      obtain ⟨space, hdevice, hspace, -, rfl⟩ := Registry.exposePoint_of_ok hexpose
      exact (h.setPort hspace _).recordHost (h.virtual hdevice) _
    | failed entry hsrc hdst hne hfold =>
      obtain hsame | ⟨src, space, -, hspace, hgiven⟩ :=
        Registry.stateAfter_foldLinkInPlace_of_error hfold
      · rwa [hsame]
      · rw [hgiven]
        exact h.setPort hspace _
    | unread | ignored | unknown | unattached => exact h

theorem under_afterLetters (mode : Abstraction) (letters : List Letter) :
    (afterLetters mode letters).Under mode := by
  rw [afterLetters_eq_hearAll]
  refine hearAll_induction (motive := fun _ d => d.Under mode)
    ⟨Registry.under_empty mode, Topology.names_empty⟩ ?_ (reportsOf letters)
  intro reports r h
  have hnames : (empty.hearAll mode reports).Names (DeviceId.Under mode) :=
    ⟨consistent_empty.hearAll mode reports, h.topology⟩
  have htaken := (hnames.takeUpJson (r := r) fun _ hid => hid.scheme).1
  exact ⟨registry_under_hear h.registry r, htaken.topology⟩

end Domain

end Multidomain
