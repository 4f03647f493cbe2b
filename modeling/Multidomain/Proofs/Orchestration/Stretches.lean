import Multidomain.Proofs.Flow.Hop
import Multidomain.Proofs.Orchestration.Segment
import Multidomain.Proofs.Topology.ShortestRoute

/-!
# A segment is as long as its stretch

The rules for a segment are not laid along the links that it was cut from. The topology is asked for a
way between its two ends, and where several are equally short it may give another one. It gives one of
the same length (`exists_way?_of_part`): a part of a shortest route is itself as short as can be, since
with a shorter way in its place the route would be shorter too. Segments are parts of the route, and
their stretches together are the route.
-/

namespace Multidomain

variable {source middle target : DeviceId} {links : List Link}

theorem devicesAlong_append (h : Leads middle source links) (rest : List Link) :
    devicesAlong source (links ++ rest)
      = links.map (fun l => l.src.device) ++ devicesAlong middle rest := by
  induction links generalizing source with
  | nil =>
    obtain rfl : source = middle := h
    rfl
  | cons l links ih =>
    obtain ⟨rfl, hrest⟩ := h
    exact congrArg (l.src.device :: ·) (ih hrest)

theorem src_ne_of_nodup {rest : List Link} (h : Leads middle source links)
    (hnodup : (devicesAlong source (links ++ rest)).Nodup) {device : DeviceId}
    (hdevice : device ∈ devicesAlong middle rest) : ∀ l ∈ links, l.src.device ≠ device := by
  intro l hl
  rw [devicesAlong_append h, List.nodup_append] at hnodup
  exact hnodup.2.2 _ (List.mem_map_of_mem hl) _ hdevice

theorem head?_src_of_leads (h : Leads target source links) :
    ∀ l ∈ links.head?, l.src.device = source := by
  cases links with
  | nil => simp
  | cons l rest => simpa using h.1

namespace Segment

/-- The links of a path between the entry and the exit of the segment. -/
def stretch (s : Segment) (links : List Link) : List Link :=
  (links.dropWhile fun l => l.src.device ≠ s.src.device).takeWhile
    fun l => l.src.device ≠ s.dst.device

theorem stretch_append_of_ne {s : Segment} {before : List Link} (links : List Link)
    (h : ∀ l ∈ before, l.src.device ≠ s.src.device) :
    s.stretch (before ++ links) = s.stretch links := by
  rw [stretch, List.dropWhile_append_of_pos (by simpa using h), stretch]

theorem stretch_of_leads {s : Segment} {run rest : List Link}
    (hrun : Leads s.dst.device s.src.device run) (hrest : Leads target s.dst.device rest)
    (hnodup : (devicesAlong s.src.device (run ++ rest)).Nodup) : s.stretch (run ++ rest) = run := by
  have hentry : ∀ l ∈ (run ++ rest).head?, l.src.device = s.src.device :=
    head?_src_of_leads (hrun.append hrest)
  have hdrop : (run ++ rest).dropWhile (fun l => l.src.device ≠ s.src.device) = run ++ rest := by
    cases hlinks : run ++ rest with
    | nil => rfl
    | cons l more =>
      have hl : l.src.device = s.src.device := hentry l (by simp [hlinks])
      exact List.dropWhile_cons_of_neg (by simpa using hl)
  have hpass : ∀ l ∈ run, l.src.device ≠ s.dst.device :=
    src_ne_of_nodup hrun hnodup List.mem_cons_self
  have hstop : rest.takeWhile (fun l => l.src.device ≠ s.dst.device) = [] := by
    cases rest with
    | nil => rfl
    | cons l more => exact List.takeWhile_cons_of_neg (by simpa using hrest.1)
  rw [stretch, hdrop, List.takeWhile_append_of_pos (by simpa using hpass), hstop, List.append_nil]

end Segment

namespace Cuts

variable {owner? : DeviceId → Option String} {src dst : ConnectPoint} {segments : List Segment}

/-- The stretch of a segment is the part of the path that the segment was cut from. -/
theorem exists_stretch (h : Cuts owner? dst src links segments)
    (hnodup : (devicesAlong src.device links).Nodup) {s : Segment} (hs : s ∈ segments) :
    ∃ before rest, links = before ++ (s.stretch links ++ rest)
      ∧ Leads s.src.device src.device before ∧ Leads s.dst.device s.src.device (s.stretch links)
      ∧ Leads dst.device s.dst.device rest
      ∧ ∀ device ∈ devicesAlong s.src.device (s.stretch links), owner? device = s.domain := by
  obtain ⟨before, run, rest, rfl, hbefore, hrun, hrest, howner⟩ := h.exists_split hs
  have hstretch : s.stretch (before ++ (run ++ rest)) = run := by
    rw [Segment.stretch_append_of_ne _ (src_ne_of_nodup hbefore hnodup List.mem_cons_self)]
    rw [devicesAlong_append hbefore, List.nodup_append] at hnodup
    exact Segment.stretch_of_leads hrun hrest hnodup.2.1
  rw [hstretch]
  exact ⟨before, rest, rfl, hbefore, hrun, hrest, howner⟩

theorem src_mem_devicesAlong (h : Cuts owner? dst src links segments) {s : Segment}
    (hs : s ∈ segments) : s.src.device ∈ devicesAlong src.device links := by
  obtain ⟨before, run, rest, rfl, hbefore, -⟩ := h.exists_split hs
  rw [devicesAlong_append hbefore]
  exact List.mem_append_right _ List.mem_cons_self

theorem devicesAlong_eq_flatMap (h : Cuts owner? dst src links segments)
    (hnodup : (devicesAlong src.device links).Nodup) :
    devicesAlong src.device links
      = segments.flatMap fun s => devicesAlong s.src.device (s.stretch links) := by
  induction h with
  | @last src run domain hrun howner =>
    rw [← List.append_nil run] at hnodup ⊢
    have hstretch : Segment.stretch ⟨domain, src, dst⟩ (run ++ []) = run :=
      Segment.stretch_of_leads hrun rfl hnodup
    rw [List.flatMap_singleton, hstretch, List.append_nil]
  | @cut src run rest l domain segments hrun howner hnext hrest ih =>
    have hahead : Leads dst.device l.src.device (l :: rest) := ⟨rfl, hrest.leads⟩
    have hfirst : Segment.stretch ⟨domain, src, l.src⟩ (run ++ l :: rest) = run :=
      Segment.stretch_of_leads hrun hahead hnodup
    have hsplit : devicesAlong src.device (run ++ l :: rest)
        = devicesAlong src.device run ++ devicesAlong l.dst.device rest := by
      simp [devicesAlong]
    have hlater : ∀ s ∈ segments, s.stretch (run ++ l :: rest) = s.stretch rest := by
      intro s hs
      rw [List.append_cons] at hnodup ⊢
      exact Segment.stretch_append_of_ne rest
        (src_ne_of_nodup hrun.concat hnodup (hrest.src_mem_devicesAlong hs))
    rw [hsplit, List.nodup_append] at hnodup
    rw [List.flatMap_cons, hfirst, hsplit, ih hnodup.2.1]
    exact congrArg _ (List.flatMap_congr fun s hs => by rw [hlater s hs])

end Cuts

namespace Topology

variable {t t' : Topology} {a b : DeviceId} {before run rest : List Link}

theorem Chain.of_perm {links : List Link} (hsame : t'.links.items.Perm t.links.items)
    (h : t.Chain a b links) : t'.Chain a b links :=
  ⟨h.1, fun l hl => hsame.mem_iff.2 (h.2 l hl)⟩

theorem length_le_of_way? {way chain : List Link} (h : t.way? a b = some way)
    (hchain : t.Chain a b chain) : way.length ≤ chain.length := by
  by_cases hsame : a = b
  · subst hsame
    rw [way?_self] at h
    obtain rfl := Option.some.inj h
    exact Nat.zero_le _
  · obtain ⟨route, hroute⟩ := exists_route?_of_leads hsame hchain.1 hchain.2
    rw [way?_of_route? hroute] at h
    obtain rfl := Option.some.inj h
    exact length_le_of_route? hroute hchain

/-- **Parts of shortest routes are shortest.** Where the topology holds its links in another order, its
way between two devices of a route is as long as the part of the route between them. -/
theorem exists_way?_of_part (hsame : t'.links.items.Perm t.links.items)
    (hroute : t.route? source target = some (before ++ (run ++ rest)))
    (hbefore : Leads a source before) (hrun : Leads b a run) (hrest : Leads target b rest) :
    ∃ way, t'.way? a b = some way ∧ way.length = run.length := by
  obtain ⟨-, hstored, -⟩ := route?_spec hroute
  have hpart : t.Chain a b run := ⟨hrun, fun l hl => hstored l (by simp [hl])⟩
  have hpart' : t'.Chain a b run := hpart.of_perm hsame
  obtain ⟨way, hway⟩ := exists_way?_of_leads hpart'.1 hpart'.2
  obtain ⟨hleads, hheld, -⟩ := way?_spec hway
  -- the route with the way in the place of its part is no shorter
  have hdetour : t.Chain source target (before ++ (way ++ rest)) := by
    refine ⟨hbefore.append (hleads.append hrest), fun l hl => ?_⟩
    simp only [List.mem_append] at hl
    obtain hl | hl | hl := hl
    · exact hstored l (by simp [hl])
    · exact hsame.mem_iff.1 (hheld l hl)
    · exact hstored l (by simp [hl])
  have hle : way.length ≤ run.length := length_le_of_way? hway hpart'
  have hge := length_le_of_route? hroute hdetour
  simp only [List.length_append] at hge
  exact ⟨way, hway, by omega⟩

theorem length_rulesAlong (app : String) (terminal : Terminal) (exit : ConnectPoint)
    (inPort : PortNumber) (links : List Link) :
    (rulesAlong app terminal exit inPort links).length = 2 * (links.length + 1) := by
  induction links generalizing inPort with
  | nil => rfl
  | cons l rest ih =>
    rw [rulesAlong, List.length_append, ih, List.length_cons]
    change 2 + _ = _
    omega

/-- **Rules for a segment are as many as its stretch needs.** A route is cut into the stretches of its
segments: each leads from the entry to the exit of its segment on devices of the segment's owner, and
each device of the route is on one of them. Whoever asks for the rules from the entry of a segment to
its exit, in whatever order the topology holds its links by then, gets two for each device of the
stretch; if no route is found, then because the two ends are on one device. -/
theorem length_oneWay_of_segment (t t' : Topology) (owner? : DeviceId → Option String)
    (src dst : ConnectPoint) (links : List Link)
    (hroute : t.route? src.device dst.device = some links)
    (hsame : t'.links.items.Perm t.links.items) (app : String) (terminal : Terminal) :
    let segments := splitRoute owner? src dst (links.map Link.ends)
    (devicesAlong src.device links
        = segments.flatMap fun s => devicesAlong s.src.device (s.stretch links))
      ∧ ∀ s ∈ segments,
        s.stretch links <:+: links ∧ Leads s.dst.device s.src.device (s.stretch links)
          ∧ (∀ device ∈ devicesAlong s.src.device (s.stretch links), owner? device = s.domain)
          ∧ (t'.oneWay app s.src s.dst terminal).length = 2 * ((s.stretch links).length + 1)
          ∧ (t'.route? s.src.device s.dst.device = none → s.src.device = s.dst.device) := by
  intro segments
  obtain ⟨hleads, -, hnodup⟩ := route?_spec hroute
  have hcuts : Cuts owner? dst src links segments := cuts_splitRoute hleads
  refine ⟨hcuts.devicesAlong_eq_flatMap hnodup, fun s hs => ?_⟩
  obtain ⟨before, rest, hlinks, hbefore, hrun, hrest, howner⟩ := hcuts.exists_stretch hnodup hs
  obtain ⟨way, hway, hlength⟩ :=
    exists_way?_of_part hsame (hlinks ▸ hroute) hbefore hrun hrest
  refine ⟨⟨before, rest, by rw [List.append_assoc, ← hlinks]⟩, hrun, howner, ?_, fun hnone => ?_⟩
  · rw [oneWay_of_way? hway, length_rulesAlong, hlength]
  · by_contra hne
    rw [way?, hnone, if_neg hne] at hway
    cases hway

/-- Two ways of one length from the first device to the fourth, and a link from there to a fifth. -/
def forked : List Link :=
  [.direct ⟨⟨⟨"of:1"⟩, 1⟩, ⟨⟨"of:2"⟩, 1⟩⟩, .direct ⟨⟨⟨"of:1"⟩, 2⟩, ⟨⟨"of:3"⟩, 1⟩⟩,
   .direct ⟨⟨⟨"of:2"⟩, 2⟩, ⟨⟨"of:4"⟩, 1⟩⟩, .direct ⟨⟨⟨"of:3"⟩, 2⟩, ⟨⟨"of:4"⟩, 2⟩⟩,
   .direct ⟨⟨⟨"of:4"⟩, 3⟩, ⟨⟨"of:5"⟩, 1⟩⟩]

/-- The rules for the first segment go by the other way, and are as many. -/
theorem length_oneWay_of_segment_otherWay :
    let t : Topology := { links := Roster.empty.putAll forked }
    let t' : Topology := { links := Roster.empty.putAll forked.reverse }
    let owner? (device : DeviceId) := if device = ⟨"of:5"⟩ then some "10.0.0.2" else none
    let links : List Link := [.direct ⟨⟨⟨"of:1"⟩, 1⟩, ⟨⟨"of:2"⟩, 1⟩⟩,
      .direct ⟨⟨⟨"of:2"⟩, 2⟩, ⟨⟨"of:4"⟩, 1⟩⟩, .direct ⟨⟨⟨"of:4"⟩, 3⟩, ⟨⟨"of:5"⟩, 1⟩⟩]
    let s : Segment := ⟨none, ⟨⟨"of:1"⟩, 9⟩, ⟨⟨"of:4"⟩, 3⟩⟩
    let rules := t'.oneWay "strata.orch" s.src s.dst
      ⟨⟨[0, 0, 0, 0, 0, 1], rfl⟩, ⟨[0, 0, 0, 0, 0, 2], rfl⟩⟩
    t.route? ⟨"of:1"⟩ ⟨"of:5"⟩ = some links ∧ t'.links.items.Perm t.links.items
      ∧ s ∈ splitRoute owner? ⟨⟨"of:1"⟩, 9⟩ ⟨⟨"of:5"⟩, 9⟩ (links.map Link.ends)
      ∧ s.stretch links = links.take 2 ∧ (⟨"of:2"⟩ : DeviceId) ∉ rules.map (·.device)
      ∧ rules.length = 2 * ((s.stretch links).length + 1) := by
  intro t t' owner? links s rules
  have hroute : t.route? ⟨"of:1"⟩ ⟨"of:5"⟩ = some links := by decide
  have hsame : t'.links.items.Perm t.links.items := by decide
  have hs : s ∈ splitRoute owner? ⟨⟨"of:1"⟩, 9⟩ ⟨⟨"of:5"⟩, 9⟩ (links.map Link.ends) := by decide
  obtain ⟨-, hall⟩ := length_oneWay_of_segment t t' owner? ⟨⟨"of:1"⟩, 9⟩ ⟨⟨"of:5"⟩, 9⟩ links hroute
    hsame "strata.orch" ⟨⟨[0, 0, 0, 0, 0, 1], rfl⟩, ⟨[0, 0, 0, 0, 0, 2], rfl⟩⟩
  obtain ⟨-, -, -, hlength, -⟩ := hall s hs
  exact ⟨hroute, hsame, hs, by decide, by decide, hlength⟩

end Topology

end Multidomain
