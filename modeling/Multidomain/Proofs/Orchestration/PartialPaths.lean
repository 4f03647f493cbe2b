import Multidomain.Proofs.Orchestration.Delivery
import Multidomain.Proofs.Orchestration.History
import Multidomain.Proofs.Orchestration.OwnRules
import Multidomain.Proofs.Topology.ShortestRoute

/-!
# Paths that are provided in part

A request that lacks a host or a path comes to nothing. Any other is worked on segment by segment,
and what comes of one segment does not depend on the others: a segment of the node's own gets its
rules, and a segment of a child becomes a request if the child has a name for each of its ends, and is
passed over if not. So a path is provided as a whole or not at all exactly when something comes of all
its segments or of none (`provision_all_or_nothing_iff`).
-/

namespace Multidomain

/-- Something comes of the segment: it is the node's own, or its child has names for both its ends. -/
def Registry.Provides (r : Registry) (mode : Abstraction) (s : Segment) : Prop :=
  s.domain = none ∨ ((r.childPoint? mode s.src).isSome ∧ (r.childPoint? mode s.dst).isSome)

instance (r : Registry) (mode : Abstraction) (s : Segment) : Decidable (r.Provides mode s) :=
  inferInstanceAs (Decidable (_ ∨ _))

/-- The request is for the segment, in the names that the registry knows for its ends. -/
structure Registry.Asks (r : Registry) (mode : Abstraction) (t : Terminal) (s : Segment)
    (q : SubRequest) : Prop where
  domain : s.domain = some q.child
  terminal : q.request.terminal = some t
  src : r.childPoint? mode s.src = some q.request.src
  dst : r.childPoint? mode s.dst = some q.request.dst

/-- The topology has a way along the segment, and the rules are there for each hop of it. -/
def Topology.Lays (topology : Topology) (app : String) (t : Terminal) (s : Segment)
    (rules : List FlowRule) : Prop :=
  ∃ way, topology.Chain s.src.device s.dst.device way
    ∧ ∀ hop ∈ hops s.dst s.src.port way,
        sourceRule app t hop ∈ rules ∧ destinationRule app t hop ∈ rules

namespace Domain

/-- No host is given or attached where one is needed. -/
def HostMissing (d : Domain) (p : ProvisioningRequest) : Prop :=
  p.terminal = none ∧ (d.topology.hostsAt p.src = [] ∨ d.topology.hostsAt p.dst = [])

/-- The two devices are different, and no links lead from the one to the other. -/
def PathMissing (d : Domain) (p : ProvisioningRequest) : Prop :=
  p.src.device ≠ p.dst.device ∧ ∀ chain, ¬ d.topology.Chain p.src.device p.dst.device chain

/-- The segments of the path for a request, and none where it has no path. -/
def pathSegments (d : Domain) (p : ProvisioningRequest) : List Segment :=
  match d.terminal? p, d.routeFor? p with
  | some _, some links => d.segmentsFor p links
  | _, _ => []

/-- A host, a path, or a name for an end of a child's segment is missing. -/
def Unresolvable (d : Domain) (mode : Abstraction) (p : ProvisioningRequest) : Prop :=
  d.HostMissing p ∨ d.PathMissing p ∨ ∃ s ∈ d.pathSegments p, ¬ d.registry.Provides mode s

/-- No rule is installed and no request is sent on. -/
def Idle (d : Domain) (mode : Abstraction) (app : String) (p : ProvisioningRequest) : Prop :=
  d.rulesFor app p = [] ∧ (d.provision mode app p).subRequests = []

/-- The segment has its rules or its request. -/
def ActsOn (d : Domain) (mode : Abstraction) (app : String) (p : ProvisioningRequest) (s : Segment) :
    Prop :=
  ∃ t, d.terminal? p = some t ∧
    match s.domain with
    | none => d.topology.Lays app t s (d.rulesFor app p)
    | some _ => ∃ q ∈ (d.provision mode app p).subRequests, d.registry.Asks mode t s q

/-- Where something is missing nothing is done, and everything otherwise. -/
def AllOrNothing (d : Domain) (mode : Abstraction) (app : String) (p : ProvisioningRequest) : Prop :=
  (d.Unresolvable mode p → d.Idle mode app p)
    ∧ (¬ d.Unresolvable mode p → ∀ s ∈ d.pathSegments p, d.ActsOn mode app p s)

end Domain

/-! ### One segment -/

/-- Among the rules of the node's own segments are those for every hop along each. -/
theorem Topology.lays_ownRules {topology : Topology} {t : Terminal} {segments : List Segment}
    {s : Segment} (app : String) (hs : s ∈ segments) (hdomain : s.domain = none) {run : List Link}
    (hrun : topology.Chain s.src.device s.dst.device run) :
    topology.Lays app t s (topology.ownRules app t segments) := by
  obtain ⟨way, hway⟩ := exists_way?_of_leads hrun.1 hrun.2
  obtain ⟨hleads, hstored, -⟩ := way?_spec hway
  have hmem : ∀ r ∈ topology.wayRules app s.src s.dst t, r ∈ topology.ownRules app t segments :=
    fun r hr => List.mem_flatMap.2
      ⟨s, List.mem_filter.2 ⟨hs, by simpa using hdomain⟩, mem_segmentRules.2 (.inl hr)⟩
  rw [wayRules, hway] at hmem
  refine ⟨way, ⟨hleads, hstored⟩, fun hop hhop => ⟨hmem _ ?_, hmem _ ?_⟩⟩
  · exact mem_installedAlong.2 ⟨hop, hhop, .inl rfl⟩
  · exact mem_installedAlong.2 ⟨hop, hhop, .inr rfl⟩

theorem Topology.Lays.ne_nil {topology : Topology} {app : String} {t : Terminal} {s : Segment}
    {rules : List FlowRule} (h : topology.Lays app t s rules) : rules ≠ [] := by
  obtain ⟨way, -, hlaid⟩ := h
  have hhop : ∃ hop, hop ∈ hops s.dst s.src.port way := by
    cases way with
    | nil => exact ⟨_, List.mem_cons_self⟩
    | cons l rest => exact ⟨_, List.mem_cons_self⟩
  obtain ⟨hop, hhop⟩ := hhop
  exact List.ne_nil_of_mem (hlaid hop hhop).1

namespace Registry

/-- A segment of a child has a request where something comes of it, and none otherwise. -/
theorem subRequest?_cases (r : Registry) (mode : Abstraction) (t : Terminal) {s : Segment}
    {child : String} (hdomain : s.domain = some child) :
    (r.Provides mode s ∧ ∃ q, r.subRequest? mode t child s = some q ∧ r.Asks mode t s q)
      ∨ (¬ r.Provides mode s ∧ r.subRequest? mode t child s = none) := by
  unfold Provides subRequest?
  cases hsrc : r.childPoint? mode s.src with
  | none => exact .inr ⟨by simp [hdomain], rfl⟩
  | some src =>
    cases hdst : r.childPoint? mode s.dst with
    | none => exact .inr ⟨by simp [hdomain], rfl⟩
    | some dst => exact .inl ⟨by simp, _, rfl, hdomain, rfl, hsrc, hdst⟩

/-- The requests are those for the segments of children that something comes of, in order. -/
theorem forall₂_asks (r : Registry) (mode : Abstraction) (t : Terminal) (segments : List Segment) :
    List.Forall₂ (r.Asks mode t)
      (segments.filter fun s => s.domain.isSome ∧ r.Provides mode s)
      (r.subRequests mode t segments) := by
  induction segments with
  | nil => exact .nil
  | cons s rest ih =>
    rw [subRequests, List.flatMap_cons]
    cases hdomain : s.domain with
    | none =>
      rw [List.filter_cons_of_neg (by simp [hdomain])]
      exact ih
    | some child =>
      obtain ⟨hprovides, q, hq, hasks⟩ | ⟨hlacks, hq⟩ := subRequest?_cases r mode t hdomain
      · rw [List.filter_cons_of_pos (by simp [hdomain, hprovides])]
        simp only [hq, Option.toList_some, List.singleton_append]
        exact .cons hasks ih
      · rw [List.filter_cons_of_neg (by simp [hlacks])]
        simp only [hq, Option.toList_none, List.nil_append]
        exact ih

end Registry

/-! ### The whole request -/

namespace Domain

variable {d : Domain} {mode : Abstraction} {app : String} {p : ProvisioningRequest}

theorem terminal?_eq_none_iff : d.terminal? p = none ↔ d.HostMissing p := by
  unfold terminal? HostMissing
  cases p.terminal with
  | some t => simp
  | none =>
    cases hsrc : d.topology.hostsAt p.src with
    | nil => simp
    | cons src _ => cases hdst : d.topology.hostsAt p.dst <;> simp

theorem routeFor?_eq_none_iff : d.routeFor? p = none ↔ d.PathMissing p := by
  unfold routeFor? PathMissing
  cases hroute : d.topology.route? p.src.device p.dst.device with
  | none =>
    have hnone := Topology.route?_eq_none_iff.1 hroute
    by_cases hsame : p.src.device = p.dst.device
    · simp [hsame]
    · simpa [hsame] using hnone
  | some links =>
    obtain ⟨hleads, hstored, -⟩ := Topology.route?_spec hroute
    refine ⟨fun h => (nomatch h), fun h => absurd ⟨hleads, hstored⟩ (h.2 links)⟩

/-- A request lacks a host or a path, and nothing is done, or it is worked on segment by segment. -/
theorem pathSegments_cases (d : Domain) (mode : Abstraction) (app : String)
    (p : ProvisioningRequest) :
    ((d.HostMissing p ∨ d.PathMissing p) ∧ d.pathSegments p = [] ∧ d.Idle mode app p
      ∧ ((d.provision mode app p).outcome = .unresolved
        ∨ (d.provision mode app p).outcome = .unreachable))
    ∨ ∃ t links, d.terminal? p = some t ∧ d.routeFor? p = some links
      ∧ d.pathSegments p = d.segmentsFor p links
      ∧ d.rulesFor app p = d.topology.ownRules app t (d.pathSegments p)
      ∧ (d.provision mode app p).subRequests = d.registry.subRequests mode t (d.pathSegments p) := by
  cases hterminal : d.terminal? p with
  | none =>
    refine .inl ⟨.inl (terminal?_eq_none_iff.1 hterminal), ?_, ⟨?_, ?_⟩, .inl ?_⟩
    · rw [pathSegments, hterminal]
    · rw [rulesFor, hterminal]
    · rw [provision, hterminal]
    · rw [provision, hterminal]
  | some t =>
    cases hroute : d.routeFor? p with
    | none =>
      refine .inl ⟨.inr (routeFor?_eq_none_iff.1 hroute), ?_, ⟨?_, ?_⟩, .inr ?_⟩
      · rw [pathSegments, hterminal, hroute]
      · rw [rulesFor, hterminal, hroute]
      · rw [provision, hterminal, hroute]
      · rw [provision, hterminal, hroute]
    | some links =>
      have hsegments : d.pathSegments p = d.segmentsFor p links := by
        rw [pathSegments, hterminal, hroute]
      refine .inr ⟨t, links, rfl, rfl, hsegments, ?_, ?_⟩
      · rw [rulesFor, hterminal, hroute, hsegments]
      · rw [provision_of_route hterminal hroute, hsegments]

theorem lays_of_mem_segmentsFor {links : List Link} (hroute : d.routeFor? p = some links)
    {s : Segment} (hs : s ∈ d.segmentsFor p links) (hdomain : s.domain = none) (app : String)
    (t : Terminal) :
    d.topology.Lays app t s (d.topology.ownRules app t (d.segmentsFor p links)) := by
  rw [routeFor?_eq_way?] at hroute
  obtain ⟨hleads, hstored, -⟩ := Topology.way?_spec hroute
  have hcuts : Cuts d.registry.owner? p.dst p.src links (d.segmentsFor p links) :=
    cuts_splitRoute hleads
  obtain ⟨before, run, rest, hlinks, -, hrun, -⟩ := hcuts.exists_split hs
  have hstoredRun : ∀ l ∈ run, l ∈ d.topology.links.items := fun l hl =>
    hstored l (by simp [hlinks, hl])
  exact Topology.lays_ownRules app hs hdomain ⟨hrun, hstoredRun⟩

/-- A segment has its rules or its request where something comes of it. -/
theorem actsOn_iff {s : Segment} (hs : s ∈ d.pathSegments p) :
    d.ActsOn mode app p s ↔ d.registry.Provides mode s := by
  obtain ⟨-, hnone, -⟩ | ⟨t, links, hterminal, hroute, hsegments, hrules, hrequests⟩ :=
    pathSegments_cases d mode app p
  · rw [hnone] at hs
    cases hs
  · unfold ActsOn
    rw [hterminal, hrules, hrequests]
    simp only [Option.some.injEq, exists_eq_left']
    cases hdomain : s.domain with
    | none =>
      rw [hsegments] at hs ⊢
      exact iff_of_true (lays_of_mem_segmentsFor hroute hs hdomain app t) (.inl hdomain)
    | some child =>
      constructor
      · rintro ⟨q, -, hasks⟩
        exact .inr ⟨by simp [hasks.src], by simp [hasks.dst]⟩
      · intro hprovides
        obtain ⟨-, q, hq, hasks⟩ | ⟨hlacks, -⟩ :=
          Registry.subRequest?_cases d.registry mode t hdomain
        · refine ⟨q, List.mem_flatMap.2 ⟨s, hs, ?_⟩, hasks⟩
          simp only [hdomain, hq, Option.toList_some, List.mem_singleton]
        · exact absurd hprovides hlacks

/-- Nothing is done where nothing comes of any segment. -/
theorem idle_iff : d.Idle mode app p ↔ ∀ s ∈ d.pathSegments p, ¬ d.registry.Provides mode s := by
  constructor
  · rintro ⟨hrules, hrequests⟩ s hs hprovides
    have hacts : d.ActsOn mode app p s := (actsOn_iff hs).2 hprovides
    obtain ⟨t, -, hacts⟩ := hacts
    cases hdomain : s.domain with
    | none =>
      -- there is a hop on every way, so a segment of the node's own does not go without rules
      rw [hdomain] at hacts
      exact hacts.ne_nil hrules
    | some child =>
      rw [hdomain, hrequests] at hacts
      obtain ⟨q, hq, -⟩ := hacts
      cases hq
  · intro hlacks
    obtain ⟨-, -, hidle, -⟩ | ⟨t, links, -, -, -, hrules, hrequests⟩ :=
      pathSegments_cases d mode app p
    · exact hidle
    · refine ⟨?_, ?_⟩
      · rw [hrules, Topology.ownRules, List.filter_eq_nil_iff.2 fun s hs hown => ?_,
          List.flatMap_nil]
        exact hlacks s hs (.inl (by simpa using hown))
      · have hasks := Registry.forall₂_asks d.registry mode t (d.pathSegments p)
        rw [List.filter_eq_nil_iff.2 fun s hs hgiven => ?_, List.forall₂_nil_left_iff] at hasks
        · rw [hrequests, hasks]
        · exact hlacks s hs (by simpa using (of_decide_eq_true hgiven).2)

theorem idle_of_missing (h : d.HostMissing p ∨ d.PathMissing p) :
    d.Idle mode app p ∧ ((d.provision mode app p).outcome = .unresolved
      ∨ (d.provision mode app p).outcome = .unreachable) := by
  obtain ⟨-, -, hidle, houtcome⟩ | ⟨t, links, hterminal, hroute, -⟩ := pathSegments_cases d mode app p
  · exact ⟨hidle, houtcome⟩
  · rw [← terminal?_eq_none_iff, ← routeFor?_eq_none_iff, hterminal, hroute] at h
    simp at h

/-- A missing reference keeps everything from being done exactly when something comes of all segments
or of none. -/
theorem allOrNothing_iff : d.AllOrNothing mode app p
    ↔ (∀ s ∈ d.pathSegments p, d.registry.Provides mode s)
      ∨ ∀ s ∈ d.pathSegments p, ¬ d.registry.Provides mode s := by
  constructor
  · rintro ⟨hnothing, -⟩
    by_cases hall : ∀ s ∈ d.pathSegments p, d.registry.Provides mode s
    · exact .inl hall
    · push Not at hall
      exact .inr (idle_iff.1 (hnothing (.inr (.inr hall))))
  · rintro (hall | hnone)
    · refine ⟨?_, fun _ s hs => (actsOn_iff hs).2 (hall s hs)⟩
      rintro (hhost | hpath | ⟨s, hs, hlacks⟩)
      · exact (idle_of_missing (.inl hhost)).1
      · exact (idle_of_missing (.inr hpath)).1
      · exact absurd (hall s hs) hlacks
    · refine ⟨fun _ => idle_iff.2 hnone, fun hresolved s hs => ?_⟩
      exact absurd (.inr (.inr ⟨s, hs, hnone s hs⟩)) hresolved

/-- **When a request is carried out as a whole or not at all.** Where a host or a path is missing, a
request leaves everything as it was. Otherwise it has segments, and these have their rules or their
requests where something comes of them: the requests are those of the children's segments that can be
named, in order, and nothing is done exactly when nothing comes of any segment. So a missing reference
keeps everything from being done exactly when something comes of all segments or of none. -/
theorem provision_all_or_nothing_iff (d : Domain) (mode : Abstraction) (app : String)
    (p : ProvisioningRequest) :
    let result := d.provision mode app p
    let segments := d.pathSegments p
    let provides := d.registry.Provides mode
    result.topology = d.topology.applyFlowRules (d.rulesFor app p)
      ∧ (d.HostMissing p ∨ d.PathMissing p →
        d.Idle mode app p ∧ (result.outcome = .unresolved ∨ result.outcome = .unreachable))
      ∧ (¬ (d.HostMissing p ∨ d.PathMissing p) → segments ≠ []
        ∧ result.outcome = .planned (d.rulesFor app p).length result.subRequests.length
        ∧ ∃ t, d.terminal? p = some t ∧ List.Forall₂ (d.registry.Asks mode t)
          (segments.filter fun s => s.domain.isSome ∧ provides s) result.subRequests)
      ∧ (∀ s ∈ segments, d.ActsOn mode app p s ↔ provides s)
      ∧ (d.Idle mode app p ↔ ∀ s ∈ segments, ¬ provides s)
      ∧ (d.AllOrNothing mode app p
        ↔ (∀ s ∈ segments, provides s) ∨ ∀ s ∈ segments, ¬ provides s) := by
  intro result segments provides
  refine ⟨topology_provision_eq d mode app p, idle_of_missing, fun hpresent => ?_,
    fun s hs => actsOn_iff hs, idle_iff, allOrNothing_iff⟩
  obtain ⟨hmissing, -⟩ | ⟨t, links, hterminal, hroute, hsegments, hrules, hrequests⟩ :=
    pathSegments_cases d mode app p
  · exact absurd hmissing hpresent
  · refine ⟨?_, ?_, t, hterminal, ?_⟩
    · simp only [segments, hsegments]
      exact cutRoute_ne_nil _ _ _ _ _
    · simp only [result, hrules, hrequests]
      rw [provision_of_route hterminal hroute, hsegments]
    · simp only [result, hrequests]
      exact Registry.forall₂_asks d.registry mode t segments

/-- A child that has reported one device, and a link to its virtual device from a device of the node's
own. No port of the virtual device stands for a connect point of the child. -/
def besideChild : Domain :=
  let d := afterLetters .implicit [⟨"10.0.0.2", .devices [DeviceEntry.toJson { id := ⟨"of:2"⟩ }]⟩]
  let virtual := ChildAddress.virtualDevice "10.0.0.2"
  { d with
    topology := ((d.topology.connectDevice (.switch ⟨"of:1"⟩)).1.detectLink
      (.direct ⟨⟨⟨"of:1"⟩, 2⟩, ⟨virtual, 7⟩⟩)).1 }

/-- Rules may be installed for a path of which a part is lost. -/
theorem rules_for_unresolvable_path :
    ¬ ∀ (d : Domain) (mode : Abstraction) (app : String) (p : ProvisioningRequest),
      d.Unresolvable mode p →
        (d.provision mode app p).topology = d.topology ∧ (d.provision mode app p).subRequests = [] := by
  intro h
  let p : ProvisioningRequest :=
    { src := ⟨⟨"of:1"⟩, 5⟩
      dst := ⟨ChildAddress.virtualDevice "10.0.0.2", 5⟩
      terminal := some ⟨⟨[0, 0, 0, 0, 0, 1], rfl⟩, ⟨[0, 0, 0, 0, 0, 2], rfl⟩⟩ }
  have hlacks : ∃ s ∈ besideChild.pathSegments p, ¬ besideChild.registry.Provides .implicit s := by
    decide +kernel
  obtain ⟨hsame, -⟩ := h besideChild .implicit "strata.orch" p (.inr (.inr hlacks))
  have hflows : (besideChild.provision .implicit "strata.orch" p).topology.flows.items
      ≠ besideChild.topology.flows.items := by decide +kernel
  exact hflows (congrArg (fun t : Topology => t.flows.items) hsame)

end Domain

end Multidomain
