import Multidomain.Proofs.Orchestration.ExplicitNames
import Multidomain.Proofs.Orchestration.VirtualLinks
import Multidomain.Proofs.Roster
import Multidomain.Proofs.Topology.Names

/-!
# Histories under both abstractions

A node may take up some documents under one abstraction and some under the other. The two do not get
in each other's way: whatever an element announces carries the scheme of its abstraction, so explicit
elements act on one part of the topology and implicit ones on another. What the registry and the
topology owe each other under the implicit abstraction is therefore owed by the virtual side of the
domain, which no explicit element touches, and what the two tables of explicit ids owe each other is
not touched by implicit ones. `Consistent` is both together, and every history leaves a consistent
domain behind.
-/

namespace Multidomain

/-- The scheme of the ids under which a node shows its children's devices. -/
def Abstraction.scheme : Abstraction → String
  | explicit => DeviceId.explicitScheme
  | implicit => DeviceId.implicitScheme

/-! ### What elements announce -/

/-- Every device that the notice names carries the scheme. -/
def Notice.Under (scheme : String) : Notice → Prop
  | device d => d.id.orchestratedScheme? = some scheme
  | link e => e.src.device.orchestratedScheme? = some scheme
      ∧ e.dst.device.orchestratedScheme? = some scheme
  | unlink e => e.src.device.orchestratedScheme? = some scheme
      ∧ e.dst.device.orchestratedScheme? = some scheme
  | host h => h.location.device.orchestratedScheme? = some scheme

theorem Notice.under_iff_names {scheme : String} {notice : Notice} :
    notice.Under scheme ↔ notice.Names fun id => id.orchestratedScheme? = some scheme := by
  cases notice <;> exact Iff.rfl

theorem Notice.Under.refusal? {scheme : String} {notice : Notice} (h : notice.Under scheme) :
    notice.refusal? = none := by
  cases notice with
  | device d => simp [Notice.refusal?, show d.id.orchestratedScheme? = some scheme from h]
  | link e => simp [Notice.refusal?, Ends.sameScheme, h.1, h.2]
  | unlink e => simp [Notice.refusal?, Ends.sameScheme, h.1, h.2]
  | host host =>
    simp [Notice.refusal?, show host.location.device.orchestratedScheme? = some scheme from h]

namespace Topology

/-- The topology after notices none of which is refused. -/
def heedEach (t : Topology) (notices : List Notice) : Topology :=
  notices.foldl (fun t notice => (t.heed notice).1) t

theorem heedAll_of_accepted {t : Topology} {notices : List Notice}
    (h : ∀ notice ∈ notices, notice.refusal? = none) :
    (t.heedAll notices).1 = t.heedEach notices ∧ (t.heedAll notices).2.2 = none := by
  induction notices generalizing t with
  | nil => exact ⟨rfl, rfl⟩
  | cons notice rest ih =>
    rw [List.forall_mem_cons] at h
    have hrest := ih (t := (t.heed notice).1) h.2
    rw [heedAll, h.1]
    exact hrest

end Topology

/-- What a report means to a node with the registry, if it means anything. -/
def Registry.meaning? (mode : Abstraction) (registry : Registry) (r : Report) : Option Meaning :=
  r.element?.bind fun e => (mode.meaning r.child registry e).toOption

/-- A report that means nothing leaves the domain as it is, if under the implicit abstraction the virtual
devices have their port spaces. -/
theorem Domain.takeUpJson_of_meaningless {mode : Abstraction} {d : Domain} {r : Report}
    (h : d.registry.meaning? mode r = none) (hhoused : mode = .implicit → d.registry.Housed) :
    ∃ fault, d.takeUpJson mode r.child r.kind r.change r.value = (d, [], some fault) := by
  cases helement : r.element? with
  | none => exact ⟨_, takeUpJson_of_no_element helement⟩
  | some e =>
    rw [takeUpJson_of_element helement]
    cases hmeaning : mode.meaning r.child d.registry e with
    | ok m => simp [Registry.meaning?, helement, hmeaning, Except.toOption] at h
    | error fault =>
      have hleft : mode.leftBehind d.registry e = d.registry := by
        cases mode with
        | explicit => rfl
        | implicit => exact (hhoused rfl).leftBehind_eq hmeaning
      exact ⟨fault, by rw [takeUp_of_error hmeaning, hleft]⟩

theorem Registry.meaning?_eq_some {mode : Abstraction} {registry : Registry} {r : Report}
    {m : Meaning} (h : registry.meaning? mode r = some m) :
    ∃ e, r.element? = some e ∧ mode.meaning r.child registry e = .ok m := by
  obtain ⟨e, helement, hmeaning⟩ := Option.bind_eq_some_iff.1 h
  refine ⟨e, helement, ?_⟩
  cases hresult : mode.meaning r.child registry e with
  | error fault => simp [hresult, Except.toOption] at hmeaning
  | ok m' => simpa [hresult, Except.toOption] using hmeaning

theorem Domain.takeUpJson_of_accepted {mode : Abstraction} {d : Domain} {r : Report} {m : Meaning}
    (h : d.registry.meaning? mode r = some m)
    (haccepted : ∀ notice ∈ m.notices, notice.refusal? = none) :
    d.hear mode r = ⟨m.registry, d.topology.heedEach m.notices⟩
      ∧ (d.takeUpJson mode r.child r.kind r.change r.value).2.2 = none := by
  obtain ⟨e, helement, hmeaning⟩ := Registry.meaning?_eq_some h
  have hheeded := Topology.heedAll_of_accepted (t := d.topology) haccepted
  rw [hear, takeUpJson_of_element helement, takeUp_of_ok hmeaning, hheeded.1, hheeded.2]
  exact ⟨rfl, rfl⟩

theorem mapError_eq_ok {ε ε' α : Type} {x : Except ε α} {f : ε → ε'} {a : α}
    (h : x.mapError f = .ok a) : x = .ok a := by
  cases x with
  | error fault => cases h
  | ok b => exact congrArg Except.ok (Except.ok.inj h)

/-- The ids under which an abstraction shows the devices of a child as it first hears of them. -/
def Abstraction.Gives : Abstraction → String → DeviceId → Prop
  | explicit, _, id => ∃ native : DeviceId, native.toExplicit = .ok id
  | implicit, child, id => id = ChildAddress.virtualDevice child

theorem Abstraction.Gives.scheme {mode : Abstraction} {child : String} {id : DeviceId}
    (h : mode.Gives child id) : id.orchestratedScheme? = some mode.scheme := by
  cases mode with
  | explicit =>
    obtain ⟨native, hid⟩ := h
    exact Explicit.orchestratedScheme?_of_toExplicit hid
  | implicit =>
    obtain rfl := h
    exact ChildAddress.orchestratedScheme?_virtualDevice child

section Names

variable {P : DeviceId → Prop} {child : String}

theorem Explicit.names_of_point {p p' : ConnectPoint} (h : Explicit.point p = .ok p')
    (hnew : ∀ id, Abstraction.explicit.Gives child id → P id) : P p'.device := by
  obtain ⟨device, hdevice, hpoint⟩ := exists_of_bind_eq_ok h
  cases hpoint
  exact hnew device ⟨p.device, hdevice⟩

theorem Explicit.names_of_ends {e e' : Ends} (h : Explicit.ends e = .ok e')
    (hnew : ∀ id, Abstraction.explicit.Gives child id → P id) : e'.Names P := by
  obtain ⟨src, hsrc, h⟩ := exists_of_bind_eq_ok h
  obtain ⟨dst, hdst, h⟩ := exists_of_bind_eq_ok h
  cases h
  exact ⟨names_of_point hsrc hnew, names_of_point hdst hnew⟩

/-- Whatever an element announces under the explicit abstraction has a new id. -/
theorem Explicit.names_of_meaning {r : Registry} {e : Element} {m : Meaning}
    (h : meaning child r e = .ok m) (hnew : ∀ id, Abstraction.explicit.Gives child id → P id) :
    ∀ notice ∈ m.notices, notice.Names P := by
  match e with
  | .device entry =>
    obtain ⟨id, hid, h⟩ := exists_of_bind_eq_ok h
    cases h
    exact List.forall_mem_singleton.2 (hnew id ⟨entry.id, mapError_eq_ok hid⟩)
  | .link entry .added =>
    obtain ⟨e, he, h⟩ := exists_of_bind_eq_ok h
    cases h
    exact List.forall_mem_singleton.2 (names_of_ends (mapError_eq_ok he) hnew)
  | .link entry .removed =>
    obtain ⟨e, he, h⟩ := exists_of_bind_eq_ok h
    cases h
    exact List.forall_mem_singleton.2 (names_of_ends (mapError_eq_ok he) hnew)
  | .host entry =>
    obtain ⟨id, _, h⟩ := exists_of_bind_eq_ok h
    obtain ⟨location, hlocation, h⟩ := exists_of_bind_eq_ok h
    cases h
    exact List.forall_mem_singleton.2 (names_of_point (mapError_eq_ok hlocation) hnew)

/-- Whatever an element announces under the explicit abstraction carries its scheme. -/
theorem Explicit.under_of_meaning {r : Registry} {e : Element} {m : Meaning}
    (h : meaning child r e = .ok m) :
    ∀ notice ∈ m.notices, notice.Under DeviceId.explicitScheme := fun notice hnotice =>
  Notice.under_iff_names.2 (names_of_meaning h (fun _ hid => hid.scheme) notice hnotice)

end Names

namespace Implicit

open ChildAddress (virtualDevice)

variable {d : Domain}

/-- The virtual link that a real one is folded into joins two known virtual devices. -/
theorem Coherent.known_of_foldLink {real link : Ends} {src dst : DeviceId} {registry : Registry}
    (h : Coherent d) (hsrc : d.registry.virtual? real.src.device = some src)
    (hdst : d.registry.virtual? real.dst.device = some dst)
    (hfold : d.registry.foldLink real = .ok (registry, link)) : Known d.topology link := by
  obtain ⟨span, hspan, rfl, -⟩ | ⟨srcSpace, dstSpace, -, -, -, rfl, -⟩ :=
    Registry.foldLink_of_ok hsrc hdst hfold
  · exact h.known_of_span hspan (LinkBook.seenFrom_eq_or span src)
  · have hsrcReady := h.ready_of_virtual hsrc
    have hdstReady := h.ready_of_virtual hdst
    exact ⟨hsrcReady.scheme, hdstReady.scheme, hsrcReady.known, hdstReady.known⟩

/-- Whatever an element announces under the implicit abstraction has the id of its child or of a virtual
device that is known already. -/
theorem Coherent.names_of_meaning {P : DeviceId → Prop} (h : Coherent d) {child : String} {e : Element}
    {m : Meaning} (hmeaning : meaning child d.registry e = .ok m)
    (hnew : ∀ id, Abstraction.implicit.Gives child id → P id)
    (hknown : ∀ id, id.orchestratedScheme? = some DeviceId.implicitScheme →
      d.topology.knows id = true → P id) :
    ∀ notice ∈ m.notices, notice.Names P := by
  have hends : ∀ {link : Ends}, Known d.topology link →
      link.Names P ∧ link.inverted.Names P := by
    intro link hlink
    have hnames : link.Names P :=
      ⟨hknown _ hlink.src_scheme hlink.src_known, hknown _ hlink.dst_scheme hlink.dst_known⟩
    exact ⟨hnames, hnames.inverted⟩
  match e with
  | .device entry =>
    cases hmeaning
    exact List.forall_mem_singleton.2 (hnew (virtualDevice child) rfl)
  | .link entry .added =>
    obtain ⟨src, hsrc, hmeaning⟩ := exists_of_bind_eq_ok hmeaning
    obtain ⟨dst, hdst, hmeaning⟩ := exists_of_bind_eq_ok hmeaning
    have hsrc' := Registry.virtual_of_ok (mapError_eq_ok hsrc)
    have hdst' := Registry.virtual_of_ok (mapError_eq_ok hdst)
    by_cases hsame : src = dst
    · simp only [hsame, if_true] at hmeaning
      cases hmeaning
      exact List.forall_mem_nil _
    · simp only [hsame, if_false] at hmeaning
      obtain ⟨⟨registry, link⟩, hfold, hmeaning⟩ := exists_of_bind_eq_ok hmeaning
      cases hmeaning
      obtain ⟨hthere, hback⟩ := hends (h.known_of_foldLink hsrc' hdst' (mapError_eq_ok hfold))
      exact List.forall_mem_cons.2 ⟨hthere, List.forall_mem_singleton.2 hback⟩
  | .link entry .removed =>
    simp only [meaning, Registry.disconnectLink] at hmeaning
    split at hmeaning
    · cases hmeaning
      exact List.forall_mem_nil _
    · next link hcarried =>
      split at hmeaning
      · cases hmeaning
        exact List.forall_mem_nil _
      · cases hmeaning
        obtain ⟨_, span, hspan, hlink⟩ := h.span_of_carried (Prod.mk.inj hcarried).2
        obtain ⟨hthere, hback⟩ := hends (h.known_of_span hspan hlink)
        exact List.forall_mem_cons.2 ⟨hthere, List.forall_mem_singleton.2 hback⟩
  | .host entry =>
    obtain ⟨id, _, hmeaning⟩ := exists_of_bind_eq_ok hmeaning
    obtain ⟨⟨registry, location⟩, hexpose, hmeaning⟩ := exists_of_bind_eq_ok hmeaning
    cases hmeaning
    obtain ⟨space, hvirtual, -⟩ := Registry.exposePoint_of_ok (mapError_eq_ok hexpose)
    have hready := h.ready_of_virtual hvirtual
    exact List.forall_mem_singleton.2 (hknown location.device hready.scheme hready.known)

/-- Whatever an element announces under the implicit abstraction carries its scheme. -/
theorem Coherent.under_of_meaning (h : Coherent d) {child : String} {e : Element} {m : Meaning}
    (hmeaning : meaning child d.registry e = .ok m) :
    ∀ notice ∈ m.notices, notice.Under DeviceId.implicitScheme := fun notice hnotice =>
  Notice.under_iff_names.2 (h.names_of_meaning hmeaning (fun _ hid => hid.scheme)
    (fun _ hscheme _ => hscheme) notice hnotice)

end Implicit

/-! ### The virtual side -/

/-- The source of the link is a virtual device. -/
def Ends.isVirtual (e : Ends) : Bool :=
  e.src.device.orchestratedScheme? == some DeviceId.implicitScheme

theorem Ends.isVirtual_of_explicit {e : Ends}
    (h : e.src.device.orchestratedScheme? = some DeviceId.explicitScheme) : e.isVirtual = false := by
  rw [isVirtual, h]
  decide

theorem Notice.src_of_mem {notices : List Notice} {scheme : String} {e : Ends}
    (h : ∀ notice ∈ notices, notice.Under scheme) (he : .link e ∈ notices ∨ .unlink e ∈ notices) :
    e.src.device.orchestratedScheme? = some scheme := by
  obtain he | he := he
  · exact (h _ he).1
  · exact (h _ he).1

namespace Topology

/-- The topology with the links between virtual devices only. -/
def virtualSide (t : Topology) : Topology := { t with links := t.links.restrict Ends.isVirtual }

variable {t : Topology}

theorem virtualSide_heed {notice : Notice} (h : notice.Under DeviceId.implicitScheme) :
    (t.heed notice).1.virtualSide = (t.virtualSide.heed notice).1 := by
  cases notice with
  | device d =>
    simp only [heed, connectDevice, show t.virtualSide.knows d.id = t.knows d.id from rfl]
    split <;> rfl
  | link e =>
    have hvirtual : e.isVirtual = true := by simp [Ends.isVirtual, h.1]
    have hthere : t.virtualSide.links.contains (Link.direct e).ends
        = t.links.contains (Link.direct e).ends := by
      rw [Roster.contains, virtualSide, Roster.find?_restrict]
      exact congrArg Option.isSome (if_pos hvirtual)
    have hknows : ∀ device, t.virtualSide.knows device = t.knows device := fun _ => rfl
    have hput := Roster.restrict_put_of_pos (r := t.links) (a := Link.direct e) hvirtual
    simp only [heed, detectLink, hthere, hknows]
    split
    · rfl
    · split
      · rfl
      · exact congrArg (fun links => { t with links }) hput
  | unlink e =>
    have hvirtual : e.isVirtual = true := by simp [Ends.isVirtual, h.1]
    have hthere : t.virtualSide.links.find? e = t.links.find? e := by
      rw [virtualSide, Roster.find?_restrict, if_pos hvirtual]
    simp only [heed, loseLink, hthere]
    split
    · exact congrArg (fun links => { t with links }) Roster.restrict_erase
    · rfl
  | host host =>
    simp only [heed, detectHost, show t.virtualSide.knows host.location.device
      = t.knows host.location.device from rfl]
    split <;> rfl

theorem virtualSide_heedEach {notices : List Notice}
    (h : ∀ notice ∈ notices, notice.Under DeviceId.implicitScheme) :
    (t.heedEach notices).virtualSide = t.virtualSide.heedEach notices := by
  induction notices generalizing t with
  | nil => rfl
  | cons notice rest ih =>
    rw [List.forall_mem_cons] at h
    have hrest := ih (t := (t.heed notice).1) h.2
    rw [virtualSide_heed h.1] at hrest
    exact hrest

theorem knows_heed (notice : Notice) {device : DeviceId} (hknown : t.knows device = true) :
    (t.heed notice).1.knows device = true := by
  cases notice with
  | device d => rw [heed, knows_connectDevice, hknown, Bool.or_true]
  | link e => rw [heed, knows_of_devices (devices_detectLink t _), hknown]
  | unlink e => rw [heed, knows_of_devices (devices_loseLink t e), hknown]
  | host host =>
    simp only [heed, detectHost]
    split <;> exact hknown

/-- A notice of a link passes by the links of another kind. -/
theorem links_restrict_heed {notice : Notice} {p : Ends → Bool}
    (hother : ∀ e, notice = .link e ∨ notice = .unlink e → p e = false) :
    (t.heed notice).1.links.restrict p = t.links.restrict p := by
  cases notice with
  | device d => rw [heed, links_connectDevice]
  | link e =>
    simp only [heed, detectLink]
    split
    · rfl
    · split
      · rfl
      · exact Roster.restrict_put_of_neg (hother e (.inl rfl))
  | unlink e =>
    simp only [heed, loseLink]
    split
    · exact Roster.restrict_erase_of_neg (hother e (.inr rfl))
    · rfl
  | host host =>
    simp only [heed, detectHost]
    split <;> rfl

theorem knows_heedEach (notices : List Notice) {device : DeviceId}
    (hknown : t.knows device = true) : (t.heedEach notices).knows device = true := by
  induction notices generalizing t with
  | nil => exact hknown
  | cons notice rest ih => exact ih (knows_heed notice hknown)

theorem links_restrict_heedEach {notices : List Notice} {p : Ends → Bool}
    (hother : ∀ e, .link e ∈ notices ∨ .unlink e ∈ notices → p e = false) :
    (t.heedEach notices).links.restrict p = t.links.restrict p := by
  induction notices generalizing t with
  | nil => rfl
  | cons notice rest ih =>
    have hrest := ih (t := (t.heed notice).1) fun e he => by
      apply hother e
      simp only [List.mem_cons]
      exact he.imp .inr .inr
    refine hrest.trans (links_restrict_heed fun e he => hother e ?_)
    obtain rfl | rfl := he <;> simp

end Topology

/-- The two tables of explicit ids tell the same pairs, and each explicit id is that of its native
id. -/
structure Registry.Aliased (r : Registry) : Prop where
  explicit?_iff : ∀ {native explicit},
    r.explicit? native = some explicit ↔ r.native? explicit = some native
  toExplicit : ∀ {native explicit}, r.native? explicit = some native →
    native.toExplicit = .ok explicit

theorem Registry.Aliased.congr {r r' : Registry} (h : r.Aliased) (hnatives : r'.natives = r.natives)
    (haliases : r'.aliases = r.aliases) : r'.Aliased := by
  constructor
  · intro native explicit
    rw [explicit?, native?, hnatives, haliases]
    exact h.explicit?_iff
  · intro native explicit hnative
    rw [native?, hnatives] at hnative
    exact h.toExplicit hnative

theorem Registry.Aliased.setAlias {r : Registry} {native explicit : DeviceId} (h : r.Aliased)
    (hid : native.toExplicit = .ok explicit) : (r.setAlias explicit native).Aliased := by
  constructor
  case toExplicit =>
    intro native' explicit' hnative
    rw [native?_setAlias] at hnative
    split at hnative
    · next hsame =>
      cases hnative
      exact hsame ▸ hid
    · exact h.toExplicit hnative
  case explicit?_iff =>
    intro native' explicit'
    rw [explicit?_setAlias, native?_setAlias]
    by_cases hnative : native = native'
    · subst hnative
      rw [if_pos rfl]
      by_cases hexplicit : explicit = explicit'
      · simp [hexplicit]
      · -- the native id stands for no other explicit id, since that would be requalified to it too
        rw [if_neg hexplicit, Option.some.injEq]
        refine ⟨fun hsame => absurd hsame hexplicit, fun hold => ?_⟩
        exact Except.ok.inj (hid.symm.trans (h.toExplicit hold))
    · rw [if_neg hnative]
      by_cases hexplicit : explicit = explicit'
      · subst hexplicit
        rw [if_pos rfl, Option.some.injEq]
        refine ⟨fun hkept => ?_, fun hsame => absurd hsame hnative⟩
        split at hkept
        · cases hkept
        · next hother => exact absurd (h.explicit?_iff.1 hkept) hother
      · rw [if_neg hexplicit]
        split
        · next hprevious =>
          -- what the id stood for before is no longer anyone's native id
          rw [← h.explicit?_iff, h.explicit?_iff.2 hprevious, Option.some.injEq]
          simp [hexplicit]
        · exact h.explicit?_iff

namespace Domain

def virtualSide (d : Domain) : Domain := { d with topology := d.topology.virtualSide }

/-- What every history keeps: the virtual side of the domain is coherent, and the tables of explicit
ids agree. -/
structure Consistent (d : Domain) : Prop where
  coherent : Implicit.Coherent d.virtualSide
  aliased : d.registry.Aliased

variable {d : Domain} {mode : Abstraction} {r : Report}

theorem consistent_empty : Consistent .empty where
  coherent := Implicit.coherent_empty
  aliased := by
    constructor
    · intro native explicit
      change none = some explicit ↔ none = some native
      simp
    · intro native explicit h
      exact nomatch (h : none = _)

theorem Consistent.under_of_meaning {m : Meaning} (h : Consistent d)
    (hmeaning : d.registry.meaning? mode r = some m) :
    ∀ notice ∈ m.notices, notice.Under mode.scheme := by
  obtain ⟨e, -, hmeaning⟩ := Registry.meaning?_eq_some hmeaning
  cases mode with
  | explicit => exact Explicit.under_of_meaning hmeaning
  | implicit => exact h.coherent.under_of_meaning hmeaning

/-- What a report announces in a consistent domain has ids that its abstraction gives, or such as the
topology names already. -/
theorem Consistent.names_of_meaning {P : DeviceId → Prop} {m : Meaning} (h : Consistent d)
    (hnames : d.topology.Names P) (hnew : ∀ id, mode.Gives r.child id → P id)
    (hmeaning : d.registry.meaning? mode r = some m) : ∀ notice ∈ m.notices, notice.Names P := by
  obtain ⟨e, -, hmeaning⟩ := Registry.meaning?_eq_some hmeaning
  cases mode with
  | explicit => exact Explicit.names_of_meaning hmeaning hnew
  | implicit =>
    exact h.coherent.names_of_meaning hmeaning hnew fun id _ hknown => hnames.of_knows hknown

/-- In a consistent domain nothing that a report announces is refused. -/
theorem Consistent.takeUpJson {m : Meaning} (h : Consistent d)
    (hmeaning : d.registry.meaning? mode r = some m) :
    d.hear mode r = ⟨m.registry, d.topology.heedEach m.notices⟩
      ∧ (d.takeUpJson mode r.child r.kind r.change r.value).2.2 = none :=
  takeUpJson_of_accepted hmeaning fun notice hnotice =>
    (h.under_of_meaning hmeaning notice hnotice).refusal?

theorem hear_of_meaningless (h : d.registry.meaning? mode r = none)
    (hhoused : mode = .implicit → d.registry.Housed) : d.hear mode r = d := by
  obtain ⟨fault, htaken⟩ := takeUpJson_of_meaningless h hhoused
  rw [hear, htaken]

theorem Consistent.housed (h : Consistent d) : d.registry.Housed := h.coherent.housed

theorem Consistent.virtualSide_hear (h : Consistent d) (r : Report) :
    (d.hear .implicit r).virtualSide = d.virtualSide.hear .implicit r := by
  cases hmeaning : d.registry.meaning? .implicit r with
  | none =>
    rw [hear_of_meaningless hmeaning fun _ => h.housed,
      hear_of_meaningless (d := d.virtualSide) hmeaning fun _ => h.housed]
  | some m =>
    have hunder := h.under_of_meaning hmeaning
    have hside : d.virtualSide.registry.meaning? .implicit r = some m := hmeaning
    rw [(h.takeUpJson hmeaning).1,
      (takeUpJson_of_accepted hside fun notice hnotice => (hunder notice hnotice).refusal?).1]
    exact congrArg (Domain.mk m.registry) (Topology.virtualSide_heedEach hunder)

theorem Consistent.hear_explicit (h : Consistent d) (r : Report) :
    Consistent (d.hear .explicit r) := by
  have hregistry : (d.hear .explicit r).registry.virtuals = d.registry.virtuals
      ∧ (d.hear .explicit r).registry.ports = d.registry.ports
      ∧ (d.hear .explicit r).registry.links = d.registry.links
      ∧ (d.hear .explicit r).registry.Aliased := by
    obtain ⟨explicit, native, ⟨-, entry, -, -, hid⟩, hnamed⟩ | ⟨-, hsame⟩ :=
      Explicit.registry_hear d r
    · rw [hnamed]
      exact ⟨rfl, rfl, rfl, (h.aliased.setAlias hid).congr rfl rfl⟩
    · rw [hsame]
      exact ⟨rfl, rfl, rfl, h.aliased⟩
  obtain ⟨hvirtuals, hports, hlinks, haliased⟩ := hregistry
  have htopology : (d.hear .explicit r).topology.virtualSide.links = d.topology.virtualSide.links
      ∧ ∀ device, d.topology.knows device = true →
        (d.hear .explicit r).topology.knows device = true := by
    cases hmeaning : d.registry.meaning? .explicit r with
    | none =>
      rw [hear_of_meaningless hmeaning nofun]
      exact ⟨rfl, fun _ hknown => hknown⟩
    | some m =>
      have hunder := h.under_of_meaning hmeaning
      rw [(h.takeUpJson hmeaning).1]
      refine ⟨Topology.links_restrict_heedEach ?_, fun _ => Topology.knows_heedEach m.notices⟩
      exact fun e he => Ends.isVirtual_of_explicit (Notice.src_of_mem hunder he)
  obtain ⟨hshown, hknows⟩ := htopology
  have hopen : ∀ device, d.registry.ports.isOpen device = true →
      (d.hear .explicit r).registry.ports.isOpen device = true := by
    intro device hdevice
    rwa [hports]
  refine ⟨h.coherent.of_same_links hlinks hshown hopen hknows ?_, haliased⟩
  intro device virtual hvirtual
  have hbefore : d.registry.virtual? device = some virtual := by
    rwa [Registry.virtual?, ← hvirtuals]
  exact (h.coherent.ready_of_virtual hbefore).mono (hopen virtual) (hknows virtual)

/-- Implicit elements leave the tables of explicit ids alone. -/
theorem names_hear_implicit (d : Domain) (r : Report) :
    (d.hear .implicit r).registry.natives = d.registry.natives
      ∧ (d.hear .implicit r).registry.aliases = d.registry.aliases := by
  have heffect := Implicit.effect_hear d r
  generalize r.element? = element at heffect
  generalize d.hear .implicit r = d' at heffect ⊢
  cases heffect with
  | folded entry hsrc hdst hne hfold =>
    obtain ⟨span, -, -, rfl⟩ | ⟨srcSpace, dstSpace, -, -, -, -, rfl⟩ :=
      Registry.foldLink_of_ok hsrc hdst hfold
    · exact ⟨rfl, rfl⟩
    · exact ⟨rfl, rfl⟩
  | attached entry hexpose =>
    obtain ⟨space, -, -, -, rfl⟩ := Registry.exposePoint_of_ok hexpose
    exact ⟨rfl, rfl⟩
  | failed entry hsrc hdst hne hfold =>
    obtain ⟨ports, hleft⟩ := Registry.exists_ports_of_foldLink_error hfold
    rw [hleft]
    exact ⟨rfl, rfl⟩
  | _ => exact ⟨rfl, rfl⟩

theorem Consistent.hear_implicit (h : Consistent d) (r : Report) :
    Consistent (d.hear .implicit r) where
  coherent := by
    rw [h.virtualSide_hear]
    exact Implicit.coherent_hear h.coherent r
  aliased := by
    obtain ⟨hnatives, haliases⟩ := names_hear_implicit d r
    exact h.aliased.congr hnatives haliases

/-- A report keeps the domain consistent, whatever it is taken up as. -/
theorem Consistent.hear (h : Consistent d) (mode : Abstraction) (r : Report) :
    Consistent (d.hear mode r) := by
  cases mode with
  | explicit => exact h.hear_explicit r
  | implicit => exact h.hear_implicit r

theorem Consistent.hearAll (h : Consistent d) (mode : Abstraction) (reports : List Report) :
    Consistent (d.hearAll mode reports) := by
  induction reports generalizing d with
  | nil => exact h
  | cons r rest ih => exact ih (h.hear mode r)

theorem Consistent.virtualSide_hearAll (h : Consistent d) (reports : List Report) :
    (d.hearAll .implicit reports).virtualSide = d.virtualSide.hearAll .implicit reports := by
  induction reports generalizing d with
  | nil => rfl
  | cons r rest ih =>
    have hrest := ih (h.hear .implicit r)
    rw [h.virtualSide_hear] at hrest
    exact hrest

/-- Implicit elements leave the other links alone. -/
theorem Consistent.otherLinks_hearAll (h : Consistent d) (reports : List Report) :
    (d.hearAll .implicit reports).topology.links.restrict (fun e => !e.isVirtual)
      = d.topology.links.restrict fun e => !e.isVirtual := by
  induction reports generalizing d with
  | nil => rfl
  | cons r rest ih =>
    refine (ih (h.hear .implicit r)).trans ?_
    cases hmeaning : d.registry.meaning? .implicit r with
    | none => rw [hear_of_meaningless hmeaning fun _ => h.housed]
    | some m =>
      have hunder := h.under_of_meaning hmeaning
      rw [(h.takeUpJson hmeaning).1]
      refine Topology.links_restrict_heedEach fun e he => ?_
      simp [Ends.isVirtual, Notice.src_of_mem hunder he, Abstraction.scheme]

/-- The domain of a node that started from nothing, after a sequence of documents, each of them taken
up under an abstraction of its own. -/
def afterMixed (letters : List (Abstraction × Letter)) : Domain :=
  letters.foldl (fun d l => (d.apply l.1 l.2.child l.2.document).1) .empty

theorem consistent_afterMixed (letters : List (Abstraction × Letter)) :
    Consistent (afterMixed letters) := by
  induction letters using List.reverseRecOn with
  | nil => exact consistent_empty
  | append_singleton letters l ih =>
    rw [afterMixed, List.foldl_append]
    change Consistent (((afterMixed letters).apply l.1 l.2.child l.2.document).1)
    rw [apply_fst (afterMixed letters) l.2]
    exact ih.hearAll l.1 l.2.reports

end Domain

end Multidomain
