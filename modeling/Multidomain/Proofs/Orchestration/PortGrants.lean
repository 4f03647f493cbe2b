import Multidomain.Proofs.Orchestration.Footing
import Multidomain.Proofs.Orchestration.SeededHistory
import Multidomain.Proofs.Topology.Attachment

/-!
# Ports of virtual devices stand for connect points

Under the implicit abstraction links and hosts of children are shown at ports of virtual devices.
`Grounded` says that every such port was given to a connect point. Reports keep this, and so do seed
documents that stay away from virtual devices. (`Coherent` does not hold any more when a node has
links of its own: the topology then shows more than the book holds up.) The connect point that a port
leads to is the one that the port was given to, when a report brought a link or a host there:
`allotted_of_resolve?`.
-/

namespace Multidomain

namespace Implicit

/-- If the connect point is a port of a virtual device, the port was given to some connect point. -/
def Given (ports : PortBook) (p : ConnectPoint) : Prop :=
  p.device.orchestratedScheme? = some DeviceId.implicitScheme → ∃ real, ports.Holds p real

theorem Given.mono {ports ports' : PortBook} {p : ConnectPoint} (h : Given ports p)
    (hports : ∀ p real, ports.Holds p real → ports'.Holds p real) : Given ports' p := by
  intro hscheme
  obtain ⟨real, hreal⟩ := h hscheme
  exact ⟨real, hports p real hreal⟩

/-- The ports of virtual devices at which something is shown were given to connect points, and
children own nothing but virtual devices. -/
structure Grounded (d : Domain) : Prop where
  scheme_of_owner : ∀ {device child}, d.registry.owner? device = some child →
    device.orchestratedScheme? = some DeviceId.implicitScheme
  given_of_span : ∀ {pair span}, Table.get? d.registry.links.spans pair = some span →
    Given d.registry.ports span.src ∧ Given d.registry.ports span.dst
  attached : d.topology.AttachedAt (Given d.registry.ports)

variable {d : Domain}

theorem grounded_empty : Grounded .empty where
  scheme_of_owner h := nomatch (h : none = some _)
  given_of_span h := nomatch (h : none = some _)
  attached := Topology.attachedAt_empty

theorem Grounded.growPorts (h : Grounded d) {ports : PortBook}
    (hports : ∀ p real, d.registry.ports.Holds p real → ports.Holds p real) :
    Grounded { d with registry := { d.registry with ports } } where
  scheme_of_owner := h.scheme_of_owner
  given_of_span hspan := (h.given_of_span hspan).imp (·.mono hports) (·.mono hports)
  attached := h.attached.mono fun _ hp => hp.mono hports

theorem Grounded.absorbed (h : Grounded d) (child : String) (device : DeviceId) :
    Grounded
      { registry := (d.registry.mapDevice device (ChildAddress.virtualDevice child)).setOwner
          (ChildAddress.virtualDevice child) child
        topology := (d.topology.connectDevice (.switch (ChildAddress.virtualDevice child))).1 } := by
  have hgrown := h.growPorts fun _ _ hholds => hholds.openSpace (ChildAddress.virtualDevice child)
  constructor
  case scheme_of_owner =>
    intro other owner howner
    rw [Registry.owner?_setOwner] at howner
    split at howner
    · next hsame => exact hsame ▸ ChildAddress.orchestratedScheme?_virtualDevice child
    · exact h.scheme_of_owner howner
  case given_of_span => exact hgrown.given_of_span
  case attached => exact hgrown.attached.connectDevice _

/-- Showing a link between ports that were given keeps the invariant, whatever ports are given
besides. -/
theorem Grounded.of_entered (h : Grounded d) {ports : PortBook} {links : LinkBook} {link : Ends}
    (hports : ∀ p real, d.registry.ports.Holds p real → ports.Holds p real)
    (hspans : ∀ {pair span}, Table.get? links.spans pair = some span →
      Table.get? d.registry.links.spans pair = some span ∨ span = link)
    (hlink : Given ports link.src ∧ Given ports link.dst) :
    Grounded ⟨{ d.registry with ports, links }, shown d.topology link⟩ := by
  have hgrown := h.growPorts hports
  constructor
  case scheme_of_owner => exact h.scheme_of_owner
  case given_of_span =>
    intro pair span hspan
    obtain hold | rfl := hspans hspan
    · exact hgrown.given_of_span hold
    · exact hlink
  case attached =>
    apply hgrown.attached.heedAll
    rw [List.forall_mem_cons, List.forall_mem_singleton]
    exact ⟨hlink, hlink.symm⟩

theorem Grounded.folded {real link : Ends} {src dst : DeviceId} {registry : Registry}
    (h : Grounded d) (hsrc : d.registry.virtual? real.src.device = some src)
    (hdst : d.registry.virtual? real.dst.device = some dst)
    (hfold : d.registry.foldLink real = .ok (registry, link)) :
    Grounded ⟨registry, shown d.topology link⟩ := by
  obtain ⟨span, hspan, hlink, rfl⟩ | ⟨srcSpace, dstSpace, -, hsrcSpace, hdstSpace, rfl, rfl⟩ :=
    Registry.foldLink_of_ok hsrc hdst hfold
  · -- the virtual link is there already, and so are its ports
    apply h.of_entered (fun _ _ hholds => hholds) LinkBook.get?_spans_record
    have hends := h.given_of_span hspan
    obtain heq | heq := LinkBook.seenFrom_eq_or span src
    · rw [← hlink, heq]
      exact hends
    · rw [← hlink, heq]
      exact hends.symm
  · -- both ends are given ports, and the second leaves the first in place
    have hsrcHolds := PortBook.holds_allocate_self d.registry.ports src srcSpace real.src
    have hdstHolds := PortBook.holds_allocate_self
      (Table.set d.registry.ports src (srcSpace.allocate real.src)) dst dstSpace real.dst
    apply h.of_entered
    · exact fun _ _ hholds => (hholds.allocate hsrcSpace _).allocate hdstSpace _
    · intro pair span hspan
      obtain hspan | heq := LinkBook.get?_spans_record hspan
      · rw [Table.get?_set] at hspan
        split at hspan
        · exact .inr (Option.some.inj hspan).symm
        · exact .inl hspan
      · exact .inr heq
    · exact ⟨fun _ => ⟨real.src, hsrcHolds.allocate hdstSpace _⟩, fun _ => ⟨real.dst, hdstHolds⟩⟩

theorem Grounded.disconnected (h : Grounded d) (real : Ends) {topology : Topology}
    (htopology : topology.AttachedAt (Given d.registry.ports)) :
    Grounded ⟨(d.registry.disconnectLink real).1, topology⟩ where
  scheme_of_owner := h.scheme_of_owner
  given_of_span hspan := by
    have hspans := LinkBook.spans_disconnect d.registry.links real
    exact h.given_of_span (hspans ▸ hspan)
  attached := htopology

theorem Grounded.attachHost {real location : ConnectPoint} {id : HostId} {addresses : List Ip}
    {registry : Registry} (h : Grounded d)
    (hexpose : d.registry.exposePoint real = .ok (registry, location)) :
    Grounded
      { registry := (registry.recordHost ⟨id, real⟩ ⟨id, location⟩).1
        topology := (d.topology.heedAll [.host { id, addresses, location }]).1 } := by
  obtain ⟨space, -, hspace, hport, rfl⟩ := Registry.exposePoint_of_ok hexpose
  have hgrown := h.growPorts fun _ _ hholds => hholds.allocate hspace real
  have hlocation : PortBook.Holds
      (Table.set d.registry.ports location.device (space.allocate real)) location real := by
    have hself := PortBook.holds_allocate_self d.registry.ports location.device space real
    rwa [← hport] at hself
  constructor
  case scheme_of_owner => exact h.scheme_of_owner
  case given_of_span => exact hgrown.given_of_span
  case attached =>
    apply hgrown.attached.heedAll
    rw [List.forall_mem_singleton]
    exact fun _ => ⟨real, hlocation⟩

theorem grounded_hear (h : Grounded d) (r : Report) : Grounded (d.hear .implicit r) := by
  have heffect := effect_hear d r
  generalize r.element? = element at heffect
  generalize d.hear .implicit r = d' at heffect ⊢
  cases heffect with
  | unread => exact h
  | absorbed entry => exact h.absorbed r.child entry.id
  | ignored => exact h
  | failed entry hsrc hdst hne hfold =>
    obtain hleft | ⟨src, space, -, hspace, hleft⟩ :=
      Registry.stateAfter_foldLinkInPlace_of_error hfold
    · rwa [hleft]
    · rw [hleft]
      exact h.growPorts fun _ _ hholds => hholds.allocate hspace _
  | folded entry hsrc hdst hne hfold => exact h.folded hsrc hdst hfold
  | unknown => exact h
  | thinned entry => exact h.disconnected entry.ends h.attached
  | withdrawn entry =>
    apply h.disconnected entry.ends
    apply h.attached.heedAll
    rw [List.forall_mem_cons, List.forall_mem_singleton]
    exact ⟨trivial, trivial⟩
  | unattached => exact h
  | attached entry hexpose => exact h.attachHost hexpose

theorem grounded_sow (h : Grounded d) {s : Seed} (hnative : s.Native) : Grounded (d.sow s) where
  scheme_of_owner := h.scheme_of_owner
  given_of_span := h.given_of_span
  attached := by
    have hgiven : ∀ p : ConnectPoint, p.device.orchestratedScheme? = none →
        Given d.registry.ports p := by
      intro p hp hscheme
      exact nomatch hp.symm.trans hscheme
    exact (hnative.mono hgiven).plant h.attached

theorem grounded_after {history : List (Intake Report)}
    (hnative : ∀ s, .seed s ∈ history → s.Native) : Grounded (Domain.after .implicit history) := by
  revert hnative
  refine Domain.after_induction (motive := fun history d =>
    (∀ s, .seed s ∈ history → s.Native) → Grounded d) (fun _ => grounded_empty) ?_ history
  intro history intake ih hnative
  have h := ih fun s hs => hnative s (List.mem_append_left _ hs)
  cases intake with
  | sent r => exact grounded_hear h r
  | seed s => exact grounded_sow h (hnative s (by simp))

/-! ### Whom ports were given to -/

/-- A report brings a link or a host to the connect point, which is given the port. -/
def Allots (d : Domain) (r : Report) (p real : ConnectPoint) : Prop :=
  real ∈ r.points ∧ ¬ d.registry.ports.Holds p real
    ∧ (d.hear .implicit r).registry.ports.Holds p real

/-- The connect point is the one that the port was given to, or the last of them should the numbers
of ports have run out and begun again. -/
def Allotted (history : List (Intake Report)) (p real : ConnectPoint) : Prop :=
  Domain.LastWritten .implicit (fun d r real => Allots d r p real) history real

theorem allotted_of_resolve? {history : List (Intake Report)} {p real : ConnectPoint}
    (h : (Domain.after .implicit history).registry.resolve? p.device p.port = some real) :
    Allotted history p real := by
  apply Domain.lastWritten_of_reads fun d real => d.registry.resolve? p.device p.port = some real
  case hempty => exact fun real hnone => nomatch (hnone : none = _)
  case hsow => exact fun d s real hreal => hreal
  case hhear =>
    intro d r real hreal
    obtain ⟨given, hpoint, hbefore, hafter, hresolve⟩ | ⟨hkept, hresolve⟩ := (ports_grow d r).given p
    · obtain rfl : given = real := Option.some.inj (hresolve.symm.trans hreal)
      exact .inl ⟨hpoint, hbefore, hafter⟩
    · exact .inr ⟨hresolve.symm.trans hreal, fun other ⟨_, hbefore, hafter⟩ =>
        hbefore (hkept other hafter)⟩
  case h => exact h

end Implicit

end Multidomain
