import Multidomain.Proofs.Orchestration.Delivery
import Multidomain.Proofs.Orchestration.ExplicitNames
import Multidomain.Proofs.Orchestration.Planning
import Multidomain.Proofs.Orchestration.PortGrants
import Multidomain.Proofs.Orchestration.Segment

/-!
# Every segment of a child becomes a request to it

A segment of a child is dropped where the child's name for one of its ends is not known. In a domain
that children's documents have built this does not happen: the ends of a segment are ports at which
the topology shows a link or a host, on a device of the segment's owner, and the registry knows what
such a port stands for. Which route is found, and which host stands for a point, may depend on the order
in which links and hosts are gone through; the names do not. `subRequests_of_planned` puts together what
`Cuts` says of the ends of segments, and what the histories of the two abstractions say of owners, native
ids and ports.
-/

namespace Multidomain

/-- What a child is told in the place of a connect point: under the explicit abstraction the same
port on the device that the child named last under this id, and under the implicit one the connect
point that the port was given to. -/
def Renamed (mode : Abstraction) (history : List (Intake Report)) (child : String)
    (p real : ConnectPoint) : Prop :=
  match mode with
  | .explicit => real.port = p.port ∧ Explicit.LastNamed history p.device real.device child
  | .implicit => Implicit.Allotted history p real

/-- The request is for the segment: it goes to the segment's owner, is for the same hosts, and its
ends are those of the segment in the owner's names. -/
structure SubRequest.Serves (mode : Abstraction) (history : List (Intake Report)) (t : Terminal)
    (s : Segment) (q : SubRequest) : Prop where
  domain : s.domain = some q.child
  terminal : q.request.terminal = some t
  src : Renamed mode history q.child s.src q.request.src
  dst : Renamed mode history q.child s.dst q.request.dst

/-- A link of the topology starts or ends at the connect point, or a host is attached to it. -/
def Topology.Uses (t : Topology) (p : ConnectPoint) : Prop :=
  (∃ l ∈ t.links.items, p = l.src ∨ p = l.dst) ∨ ∃ h ∈ t.hosts.items, p = h.location

theorem Topology.AttachedAt.of_uses {P : ConnectPoint → Prop} {t : Topology} {p : ConnectPoint}
    (h : t.AttachedAt P) (hp : t.Uses p) : P p := by
  obtain ⟨l, hl, rfl | rfl⟩ | ⟨host, hhost, rfl⟩ := hp
  · exact (h.link l hl).1
  · exact (h.link l hl).2
  · exact h.host host hhost

/-- What is used does not depend on the order in which links and hosts are gone through. -/
theorem Topology.Uses.of_perm {t t' : Topology} {p : ConnectPoint} (h : t'.Uses p)
    (hlinks : t'.links.items.Perm t.links.items) (hhosts : t'.hosts.items.Perm t.hosts.items) :
    t.Uses p := by
  obtain ⟨l, hl, hp⟩ | ⟨host, hhost, hp⟩ := h
  · exact .inl ⟨l, hlinks.mem_iff.1 hl, hp⟩
  · exact .inr ⟨host, hhosts.mem_iff.1 hhost, hp⟩

/-- If every segment of a child has its request, the requests are those of these segments, in order.
-/
theorem Registry.forall₂_subRequests {r : Registry} {mode : Abstraction} {t : Terminal}
    {R : Segment → SubRequest → Prop} {segments : List Segment}
    (h : ∀ s ∈ segments, ∀ child, s.domain = some child →
      ∃ q, r.subRequest? mode t child s = some q ∧ R s q) :
    List.Forall₂ R (segments.filter fun s => s.domain.isSome) (r.subRequests mode t segments) := by
  induction segments with
  | nil => exact .nil
  | cons s rest ih =>
    rw [List.forall_mem_cons] at h
    obtain ⟨hs, hrest⟩ := h
    rw [subRequests, List.flatMap_cons]
    cases hdomain : s.domain with
    | none =>
      rw [List.filter_cons_of_neg (by simp [hdomain])]
      exact ih hrest
    | some child =>
      obtain ⟨q, hq, hR⟩ := hs child hdomain
      rw [List.filter_cons_of_pos (by simp [hdomain])]
      simp only [hq, Option.toList_some, List.singleton_append]
      exact .cons hR (ih hrest)

namespace Domain

variable {mode : Abstraction} {history : List (Intake Report)}

/-- What a topology uses on a device of a child has a name that the child knows. -/
theorem exists_childPoint? (hnative : ∀ s, .seed s ∈ history → s.Native) {p : ConnectPoint}
    {child : String} (howner : (after mode history).registry.owner? p.device = some child)
    (huses : (after mode history).topology.Uses p) :
    ∃ real, (after mode history).registry.childPoint? mode p = some real
      ∧ Renamed mode history child p real := by
  cases mode with
  | explicit =>
    -- an owner is never recorded without a native id
    obtain ⟨native, hknown, hlast⟩ := Explicit.lastNamed_of_owner howner
    exact ⟨{ p with device := native }, by simp [Registry.childPoint?, hknown], rfl, hlast⟩
  | implicit =>
    -- owned devices are virtual, and what is shown at their ports stands for something
    have hgrounded := Implicit.grounded_after hnative
    have hgiven := hgrounded.attached.of_uses huses
    obtain ⟨_, hholds⟩ := hgiven (hgrounded.scheme_of_owner howner)
    obtain ⟨real, hresolve, -⟩ := hholds.exists_resolve?
    exact ⟨real, hresolve, Implicit.allotted_of_resolve? hresolve⟩

theorem exists_subRequest? (hnative : ∀ s, .seed s ∈ history → s.Native) (t : Terminal)
    {s : Segment} {child : String} (hdomain : s.domain = some child)
    (hsrc : (after mode history).registry.owner? s.src.device = s.domain)
    (hdst : (after mode history).registry.owner? s.dst.device = s.domain)
    (hsrcUses : (after mode history).topology.Uses s.src)
    (hdstUses : (after mode history).topology.Uses s.dst) :
    ∃ q, (after mode history).registry.subRequest? mode t child s = some q
      ∧ q.Serves mode history t s := by
  obtain ⟨src, hsrcPoint, hsrcRenamed⟩ :=
    exists_childPoint? hnative (hsrc.trans hdomain) hsrcUses
  obtain ⟨dst, hdstPoint, hdstRenamed⟩ :=
    exists_childPoint? hnative (hdst.trans hdomain) hdstUses
  refine ⟨⟨child, { src, dst, terminal := some t }⟩, ?_, hdomain, rfl, hsrcRenamed, hdstRenamed⟩
  simp [Registry.subRequest?, hsrcPoint, hdstPoint]

theorem uses_of_terminal? {d : Domain} {src dst : ConnectPoint} {t : Terminal}
    (h : d.terminal? { src, dst } = some t) : d.topology.Uses src ∧ d.topology.Uses dst := by
  have huses : ∀ {p : ConnectPoint} {host : Host}, (d.topology.hostsAt p).head? = some host →
      d.topology.Uses p := by
    intro p host hhead
    have hmem : host ∈ d.topology.hostsAt p := List.mem_of_head? hhead
    rw [Topology.hostsAt, List.mem_filter, decide_eq_true_eq] at hmem
    exact .inr ⟨host, hmem.1, hmem.2.symm⟩
  obtain ⟨srcHost, hsrc, hrest⟩ := Option.bind_eq_some_iff.1 h
  obtain ⟨dstHost, hdst, -⟩ := Option.bind_eq_some_iff.1 hrest
  exact ⟨huses hsrc, huses hdst⟩

theorem uses_of_mem_segmentsFor {d : Domain} {p : ProvisioningRequest} {links : List Link}
    (hroute : d.routeFor? p = some links) (hsrc : d.topology.Uses p.src)
    (hdst : d.topology.Uses p.dst) {s : Segment} (hs : s ∈ d.segmentsFor p links) :
    d.registry.owner? s.src.device = s.domain ∧ d.registry.owner? s.dst.device = s.domain
      ∧ d.topology.Uses s.src ∧ d.topology.Uses s.dst := by
  rw [routeFor?_eq_way?] at hroute
  obtain ⟨hleads, hstored, -⟩ := Topology.way?_spec hroute
  have hcuts : Cuts d.registry.owner? p.dst p.src links (d.segmentsFor p links) :=
    cuts_splitRoute hleads
  obtain ⟨howner, howner', hentry, hexit⟩ := hcuts.ends_of_mem hs
  refine ⟨howner, howner', ?_, ?_⟩
  · obtain hentry | ⟨l, hl, hentry⟩ := hentry
    · exact hentry ▸ hsrc
    · exact .inl ⟨l, hstored l hl, .inr hentry⟩
  · obtain hexit | ⟨l, hl, hexit⟩ := hexit
    · exact hexit ▸ hdst
    · exact .inl ⟨l, hstored l hl, .inl hexit⟩

theorem forall₂_serves (hnative : ∀ s, .seed s ∈ history → s.Native) {d : Domain}
    (hregistry : d.registry = (after mode history).registry)
    (huses : ∀ p, d.topology.Uses p → (after mode history).topology.Uses p) {src dst : ConnectPoint}
    {t : Terminal} {links : List Link} (hterminal : d.terminal? { src, dst } = some t)
    (hroute : d.routeFor? { src, dst } = some links) :
    List.Forall₂ (SubRequest.Serves mode history t)
      ((d.segmentsFor { src, dst } links).filter fun s => s.domain.isSome)
      (d.registry.subRequests mode t (d.segmentsFor { src, dst } links)) := by
  apply Registry.forall₂_subRequests
  intro s hs child hdomain
  obtain ⟨hsrc, hdst⟩ := uses_of_terminal? hterminal
  obtain ⟨hsrcOwner, hdstOwner, hsrcUses, hdstUses⟩ :=
    uses_of_mem_segmentsFor hroute hsrc hdst hs
  rw [hregistry] at hsrcOwner hdstOwner ⊢
  exact exists_subRequest? hnative t hdomain hsrcOwner hdstOwner (huses _ hsrcUses)
    (huses _ hdstUses)

/-- **No segment of a child is lost.** After any documents of children under one abstraction, and seed
documents that keep to native devices, a path planned between two connect points makes one request
for each segment of a child, in the order of the path, and each serves its segment. The links and hosts
of the topology may be gone through in any order, and any flow rules may have been installed. -/
theorem subRequests_of_planned (mode : Abstraction) (intakes : List (Intake Letter))
    (hnative : ∀ s, .seed s ∈ intakes → s.Native) {topology : Topology}
    (hlinks : topology.links.items.Perm (afterIntakes mode intakes).topology.links.items)
    (hhosts : topology.hosts.items.Perm (afterIntakes mode intakes).topology.hosts.items)
    (app : String) (src dst : ConnectPoint) {localRules forwarded : Nat}
    (hplanned : (provision { afterIntakes mode intakes with topology } mode app { src, dst }).outcome
      = .planned localRules forwarded) :
    let d := { afterIntakes mode intakes with topology }
    let subRequests := (d.provision mode app { src, dst }).subRequests
    ∃ t links, d.terminal? { src, dst } = some t ∧ d.routeFor? { src, dst } = some links
      ∧ List.Forall₂ (SubRequest.Serves mode (historyOf intakes) t)
          ((splitRoute d.registry.owner? src dst (links.map Link.ends)).filter fun s =>
            s.domain.isSome) subRequests
      ∧ forwarded = subRequests.length := by
  have hseeds : ∀ s, .seed s ∈ historyOf intakes → s.Native :=
    fun s hs => hnative s (seed_mem_historyOf.1 hs)
  rw [afterIntakes_eq] at hlinks hhosts
  intro d subRequests
  have hregistry : d.registry = (after mode (historyOf intakes)).registry := by
    rw [← afterIntakes_eq]
  obtain ⟨t, links, hterminal, hroute⟩ := exists_route_of_planned hplanned
  have hprovision := provision_of_route hterminal hroute mode app
  have hrequests : subRequests = d.registry.subRequests mode t (d.segmentsFor { src, dst } links) :=
    congrArg Provisioned.subRequests hprovision
  refine ⟨t, links, hterminal, hroute, ?_, ?_⟩
  · rw [hrequests]
    exact forall₂_serves hseeds hregistry (fun p hp => hp.of_perm hlinks hhosts) hterminal hroute
  · rw [hprovision] at hplanned
    rw [hrequests]
    exact (ProvisionOutcome.planned.inj hplanned).2.symm

def sentHost (mac device : String) (port : PortNumber) : Json :=
  HostEntry.toJson { mac, vlan := "None", location := ⟨⟨device⟩, port⟩ }

/-- The children `a` and `b`, joined by a link, with a host each, beside a device of the node's own. -/
def twoChildren : List (Intake Letter) :=
  [.seed { devices := [Implicit.sentDevice "of:9"], links := [Implicit.sentLink "of:9" 1 "of:8" 1] },
   .sent ⟨"a", .devices [Implicit.sentDevice "of:1", Implicit.sentDevice "of:2"]⟩,
   .sent ⟨"b", .devices [Implicit.sentDevice "of:3"]⟩,
   .sent ⟨"a", .links [Implicit.sentLink "of:1" 2 "of:2" 2, Implicit.sentLink "of:2" 3 "of:3" 3]⟩,
   .sent ⟨"a", .hosts [sentHost "00:00:00:00:00:01" "of:1" 1]⟩,
   .sent ⟨"b", .hosts [sentHost "00:00:00:00:00:02" "of:3" 1]⟩]

/-- They are gone through from the last to the first. -/
theorem subRequests_of_planned_twoChildren :
    let shown := (afterIntakes .implicit twoChildren).topology
    let topology : Topology :=
      { links := Roster.empty.putAll shown.links.items.reverse
        hosts := Roster.empty.putAll shown.hosts.items.reverse }
    let d := { afterIntakes .implicit twoChildren with topology }
    let src : ConnectPoint := ⟨⟨"imvs:a"⟩, 2⟩
    let dst : ConnectPoint := ⟨⟨"imvs:b"⟩, 2⟩
    let subRequests := (d.provision .implicit "strata.orch" { src, dst }).subRequests
    subRequests.map (fun q => (q.child, q.request.src, q.request.dst))
        = [("a", ⟨⟨"of:1"⟩, 1⟩, ⟨⟨"of:2"⟩, 3⟩), ("b", ⟨⟨"of:3"⟩, 3⟩, ⟨⟨"of:3"⟩, 1⟩)]
      ∧ ∃ t links, d.terminal? { src, dst } = some t ∧ d.routeFor? { src, dst } = some links
        ∧ List.Forall₂ (SubRequest.Serves .implicit (historyOf twoChildren) t)
            ((splitRoute d.registry.owner? src dst (links.map Link.ends)).filter fun s =>
              s.domain.isSome) subRequests
        ∧ 2 = subRequests.length := by
  intro shown topology d src dst subRequests
  have hnative : ∀ s, .seed s ∈ twoChildren → s.Native := by
    intro s hs
    simp only [twoChildren, List.mem_cons, Intake.seed.injEq, reduceCtorEq, List.not_mem_nil,
      or_false] at hs
    subst hs
    exact ⟨by decide +kernel, by decide +kernel⟩
  have hlinks : topology.links.items.Perm shown.links.items := by decide +kernel
  have hhosts : topology.hosts.items.Perm shown.hosts.items := by decide +kernel
  have hplanned : (d.provision .implicit "strata.orch" { src, dst }).outcome = .planned 0 2 := by
    decide +kernel
  refine ⟨by decide +kernel, ?_⟩
  exact subRequests_of_planned .implicit twoChildren hnative hlinks hhosts "strata.orch" src dst
    hplanned

end Domain

end Multidomain
