import Mathlib.Data.List.Chain
import Multidomain.Orchestration.Segment
import Multidomain.Proofs.Topology.Route

/-!
# Segments are maximal runs

`Cuts` says what it is to cut a route wherever the owner changes: a run of devices of one owner, a
link to a device of another owner, and the rest of the route cut in the same way. Such a cut is
unique, and it is what `splitRoute` makes of every chain of links from the one device to the other.
All that is said of segments elsewhere is read off `Cuts`.
-/

namespace Multidomain

variable {owner? : DeviceId → Option String} {src dst : ConnectPoint} {links : List Link}
  {segments : List Segment}

/-- The segments are the maximal runs of devices of one owner along the links from a connect point to
`dst`. Between one run and the next there is one link, which leads to another owner's device; the
one segment is left where this link starts, and the next is entered where it ends. -/
inductive Cuts (owner? : DeviceId → Option String) (dst : ConnectPoint) :
    ConnectPoint → List Link → List Segment → Prop
  | last {src : ConnectPoint} {run : List Link} {domain : Option String}
      (hrun : Leads dst.device src.device run)
      (howner : ∀ device ∈ devicesAlong src.device run, owner? device = domain) :
      Cuts owner? dst src run [⟨domain, src, dst⟩]
  | cut {src : ConnectPoint} {run rest : List Link} {l : Link} {domain : Option String}
      {segments : List Segment} (hrun : Leads l.src.device src.device run)
      (howner : ∀ device ∈ devicesAlong src.device run, owner? device = domain)
      (hnext : owner? l.dst.device ≠ domain) (hrest : Cuts owner? dst l.dst rest segments) :
      Cuts owner? dst src (run ++ l :: rest) (⟨domain, src, l.src⟩ :: segments)

theorem target_mem_devicesAlong {source target : DeviceId} (h : Leads target source links) :
    target ∈ devicesAlong source links := by
  induction links generalizing source with
  | nil => exact List.mem_singleton.2 (Eq.symm h)
  | cons l rest ih => exact List.mem_cons_of_mem _ (ih h.2)

/-- While the owner stays the same, no segment ends. -/
theorem cutRoute_append (src dst : ConnectPoint) {domain : Option String} (run rest : List Link)
    (hrun : ∀ l ∈ run, owner? l.dst.device = domain) :
    cutRoute owner? dst domain src ((run ++ rest).map Link.ends)
      = cutRoute owner? dst domain src (rest.map Link.ends) := by
  induction run with
  | nil => rfl
  | cons l run ih =>
    have hsame : owner? l.ends.dst.device = domain := hrun l List.mem_cons_self
    rw [List.cons_append, List.map_cons, cutRoute]
    simp only [hsame, if_true]
    exact ih fun k hk => hrun k (List.mem_cons_of_mem l hk)

/-- A route through devices of one owner is one segment. -/
theorem splitRoute_of_one_owner {domain : Option String}
    (howner : ∀ device ∈ devicesAlong src.device links, owner? device = domain) :
    splitRoute owner? src dst (links.map Link.ends) = [⟨domain, src, dst⟩] := by
  rw [devicesAlong, List.forall_mem_cons] at howner
  obtain ⟨hsrc, hlinks⟩ := howner
  have hcut := cutRoute_append src dst links [] fun l hl => hlinks _ (List.mem_map_of_mem hl)
  rw [List.append_nil] at hcut
  rw [splitRoute, hsrc, hcut]
  rfl

/-- What has been walked since the present segment was entered is a run, and what is ahead is cut. -/
theorem cuts_cutRoute {domain : Option String} {entry : ConnectPoint} {device : DeviceId}
    {walked ahead : List Link} (hwalked : Leads device entry.device walked)
    (howner : ∀ device ∈ devicesAlong entry.device walked, owner? device = domain)
    (hahead : Leads dst.device device ahead) :
    Cuts owner? dst entry (walked ++ ahead)
      (cutRoute owner? dst domain entry (ahead.map Link.ends)) := by
  -- the links walked since the last cut are carried along, so the run is there when it ends
  induction ahead generalizing domain entry device walked with
  | nil =>
    rw [List.append_nil]
    obtain rfl : device = dst.device := hahead
    exact .last hwalked howner
  | cons l ahead ih =>
    obtain ⟨rfl, hrest⟩ := hahead
    by_cases hsame : owner? l.dst.device = domain
    · have hcut : cutRoute owner? dst domain entry ((l :: ahead).map Link.ends)
          = cutRoute owner? dst domain entry (ahead.map Link.ends) :=
        cutRoute_append entry dst [l] ahead (by simpa using hsame)
      rw [hcut, List.append_cons]
      refine ih hwalked.concat ?_ hrest
      intro device hdevice
      rw [devicesAlong_concat, List.mem_append, List.mem_singleton] at hdevice
      obtain hdevice | rfl := hdevice
      · exact howner device hdevice
      · exact hsame
    · have hcut : cutRoute owner? dst domain entry ((l :: ahead).map Link.ends)
          = ⟨domain, entry, l.src⟩
            :: cutRoute owner? dst (owner? l.dst.device) l.dst (ahead.map Link.ends) := by
        rw [List.map_cons, cutRoute]
        exact if_neg hsame
      have hentered : Cuts owner? dst l.dst ([] ++ ahead)
          (cutRoute owner? dst (owner? l.dst.device) l.dst (ahead.map Link.ends)) := by
        have hhere : Leads l.dst.device l.dst.device [] := rfl
        apply ih hhere _ hrest
        simp [devicesAlong]
      rw [hcut]
      exact .cut hwalked howner hsame hentered

theorem cuts_splitRoute (h : Leads dst.device src.device links) :
    Cuts owner? dst src links (splitRoute owner? src dst (links.map Link.ends)) := by
  have hhere : Leads src.device src.device [] := rfl
  apply cuts_cutRoute hhere _ h
  simp [devicesAlong]

namespace Cuts

/-- A route is cut in one way only. -/
theorem eq_splitRoute (h : Cuts owner? dst src links segments) :
    segments = splitRoute owner? src dst (links.map Link.ends) := by
  induction h with
  | last hrun howner => exact (splitRoute_of_one_owner howner).symm
  | @cut src run rest l domain _ hrun howner hnext _ ih =>
    rw [devicesAlong, List.forall_mem_cons] at howner
    obtain ⟨hsrc, hlinks⟩ := howner
    have hcut := cutRoute_append src dst run (l :: rest) fun l hl => hlinks _ (List.mem_map_of_mem hl)
    rw [splitRoute, hsrc, hcut, List.map_cons, cutRoute, ih]
    exact (if_neg hnext).symm

theorem leads (h : Cuts owner? dst src links segments) : Leads dst.device src.device links := by
  induction h with
  | last hrun howner => exact hrun
  | @cut src run rest l domain segments hrun howner hnext hrest ih =>
    have hahead : Leads dst.device l.src.device (l :: rest) := ⟨rfl, ih⟩
    exact hrun.append hahead

/-- The route leads to the entry of each of its segments, through it on devices of its owner, and on
from its exit. -/
theorem exists_split (h : Cuts owner? dst src links segments) {s : Segment} (hs : s ∈ segments) :
    ∃ before run rest, links = before ++ (run ++ rest) ∧ Leads s.src.device src.device before
      ∧ Leads s.dst.device s.src.device run ∧ Leads dst.device s.dst.device rest
      ∧ ∀ device ∈ devicesAlong s.src.device run, owner? device = s.domain := by
  induction h with
  | @last src run domain hrun howner =>
    obtain rfl := List.mem_singleton.1 hs
    exact ⟨[], run, [], by simp, rfl, hrun, rfl, howner⟩
  | @cut src run rest l domain segments hrun howner hnext hrest ih =>
    obtain rfl | hs := List.mem_cons.1 hs
    · exact ⟨[], run, l :: rest, by simp, rfl, hrun, ⟨rfl, hrest.leads⟩, howner⟩
    · obtain ⟨before, run', rest', rfl, hbefore, hsplit⟩ := ih hs
      have hentry : Leads s.src.device l.src.device (l :: before) := ⟨rfl, hbefore⟩
      exact ⟨run ++ l :: before, run', rest', by simp, hrun.append hentry, hsplit⟩

/-- A segment is entered and left on devices of its owner: where the route or one of its links
begins or ends. -/
theorem ends_of_mem (h : Cuts owner? dst src links segments) {s : Segment} (hs : s ∈ segments) :
    owner? s.src.device = s.domain ∧ owner? s.dst.device = s.domain
      ∧ (s.src = src ∨ ∃ l ∈ links, s.src = l.dst) ∧ (s.dst = dst ∨ ∃ l ∈ links, s.dst = l.src) := by
  induction h with
  | @last src run domain hrun howner =>
    obtain rfl := List.mem_singleton.1 hs
    exact ⟨howner _ List.mem_cons_self, howner _ (target_mem_devicesAlong hrun), .inl rfl, .inl rfl⟩
  | @cut src run rest l domain _ hrun howner _ _ ih =>
    have hl : l ∈ run ++ l :: rest := List.mem_append_right run List.mem_cons_self
    have hrest : ∀ k ∈ rest, k ∈ run ++ l :: rest :=
      fun k hk => List.mem_append_right run (List.mem_cons_of_mem l hk)
    obtain rfl | hs := List.mem_cons.1 hs
    · exact ⟨howner _ List.mem_cons_self, howner _ (target_mem_devicesAlong hrun), .inl rfl,
        .inr ⟨l, hl, rfl⟩⟩
    · obtain ⟨hsrc, hdst, hentry, hexit⟩ := ih hs
      refine ⟨hsrc, hdst, .inr ?_, ?_⟩
      · obtain hentry | ⟨k, hk, hentry⟩ := hentry
        · exact ⟨l, hl, hentry⟩
        · exact ⟨k, hrest k hk, hentry⟩
      · exact hexit.imp_right fun ⟨k, hk, hexit⟩ => ⟨k, hrest k hk, hexit⟩

theorem head? (h : Cuts owner? dst src links segments) :
    ∃ s, segments.head? = some s ∧ s.src = src ∧ s.domain = owner? src.device := by
  cases h with
  | last hrun howner => exact ⟨_, rfl, rfl, (howner _ List.mem_cons_self).symm⟩
  | cut hrun howner hnext hrest => exact ⟨_, rfl, rfl, (howner _ List.mem_cons_self).symm⟩

/-- Neighbouring segments have different owners, and one link of the route leads from the one to the
other. -/
theorem isChain (h : Cuts owner? dst src links segments) :
    segments.IsChain fun left right => left.domain ≠ right.domain
      ∧ ∃ l ∈ links, left.dst = l.src ∧ right.src = l.dst := by
  induction h with
  | last hrun howner => exact .singleton _
  | @cut src run rest l domain segments hrun howner hnext hrest ih =>
    obtain ⟨s, hhead, hentry, hdomain⟩ := hrest.head?
    rw [List.isChain_cons]
    constructor
    · intro right hright
      obtain rfl : s = right := Option.some.inj (hhead.symm.trans hright)
      rw [← hdomain] at hnext
      exact ⟨hnext.symm, l, by simp, rfl, hentry⟩
    · refine ih.imp fun left right ⟨hne, k, hk, hends⟩ => ⟨hne, k, ?_, hends⟩
      simp [hk]

/-- There is one segment more than there are links between devices of different owners. -/
theorem length_eq (h : Cuts owner? dst src links segments) :
    segments.length = 1 + links.countP fun l => owner? l.src.device ≠ owner? l.dst.device := by
  have hnone : ∀ {domain : Option String} {source target : DeviceId} {run : List Link},
      Leads target source run → (∀ device ∈ devicesAlong source run, owner? device = domain) →
      run.countP (fun l => owner? l.src.device ≠ owner? l.dst.device) = 0 := by
    intro domain source target run hrun howner
    induction run generalizing source with
    | nil => rfl
    | cons l run ih =>
      obtain ⟨rfl, hrun⟩ := hrun
      rw [devicesAlong, List.map_cons, List.forall_mem_cons] at howner
      have hdst := howner.2 _ List.mem_cons_self
      have hsame : ¬ owner? l.src.device ≠ owner? l.dst.device := by simp [howner.1, hdst]
      rw [List.countP_cons_of_neg (by simpa using hsame)]
      exact ih hrun howner.2
  induction h with
  | last hrun howner => rw [hnone hrun howner]; rfl
  | @cut src run rest l domain segments hrun howner hnext hrest ih =>
    have hsrc : owner? l.src.device = domain := howner _ (target_mem_devicesAlong hrun)
    have hcross : owner? l.src.device ≠ owner? l.dst.device := by
      rw [hsrc]
      exact hnext.symm
    rw [List.countP_append, hnone hrun howner, List.countP_cons_of_pos (by simpa using hcross),
      List.length_cons, ih]
    omega

end Cuts

/-- **A route is split into the maximal runs of devices of one owner.** For every chain of links from
the device of `src` to the device of `dst` the segments are the only cut of the route. The first is
entered at `src` and the last left at `dst`; neighbours have different owners and are joined by a
link of the route; and there is one segment more than the route has links between owners. -/
theorem splitRoute_maximalRuns (owner? : DeviceId → Option String) (src dst : ConnectPoint)
    (links : List Link) (hchain : Leads dst.device src.device links) :
    let segments := splitRoute owner? src dst (links.map Link.ends)
    (∀ cut, Cuts owner? dst src links cut ↔ cut = segments)
      ∧ segments.head?.map Segment.src = some src
      ∧ segments.getLast?.map Segment.dst = some dst
      ∧ (∀ s ∈ segments, owner? s.src.device = s.domain ∧ owner? s.dst.device = s.domain)
      ∧ segments.IsChain (fun left right => left.domain ≠ right.domain
          ∧ ∃ l ∈ links, left.dst = l.src ∧ right.src = l.dst)
      ∧ segments.length = 1 + links.countP fun l => owner? l.src.device ≠ owner? l.dst.device := by
  intro segments
  have hcuts : Cuts owner? dst src links segments := cuts_splitRoute hchain
  refine ⟨fun cut => ⟨Cuts.eq_splitRoute, fun hcut => hcut ▸ hcuts⟩, head?_cutRoute ..,
    getLast?_cutRoute .., fun s hs => ?_, hcuts.isChain, hcuts.length_eq⟩
  obtain ⟨hsrc, hdst, -⟩ := hcuts.ends_of_mem hs
  exact ⟨hsrc, hdst⟩

/-- A chain that leaves a domain, comes back to it and stays. -/
def roundTrip : List Link :=
  [.direct ⟨⟨⟨"of:1"⟩, 2⟩, ⟨⟨"of:2"⟩, 1⟩⟩, .direct ⟨⟨⟨"of:2"⟩, 2⟩, ⟨⟨"of:3"⟩, 1⟩⟩,
   .direct ⟨⟨⟨"of:3"⟩, 2⟩, ⟨⟨"of:4"⟩, 1⟩⟩]

/-- The second device of `roundTrip` belongs to a child, the others to the node. -/
def roundTripOwner? (device : DeviceId) : Option String :=
  if device = ⟨"of:2"⟩ then some "10.0.0.2" else none

theorem splitRoute_maximalRuns_roundTrip :
    Leads ⟨"of:4"⟩ ⟨"of:1"⟩ roundTrip
      ∧ ∀ cut, Cuts roundTripOwner? ⟨⟨"of:4"⟩, 5⟩ ⟨⟨"of:1"⟩, 5⟩ roundTrip cut ↔
          cut = [⟨none, ⟨⟨"of:1"⟩, 5⟩, ⟨⟨"of:1"⟩, 2⟩⟩,
            ⟨some "10.0.0.2", ⟨⟨"of:2"⟩, 1⟩, ⟨⟨"of:2"⟩, 2⟩⟩,
            ⟨none, ⟨⟨"of:3"⟩, 1⟩, ⟨⟨"of:4"⟩, 5⟩⟩] := by
  have hchain : Leads ⟨"of:4"⟩ ⟨"of:1"⟩ roundTrip := by decide
  have hsplit : splitRoute roundTripOwner? ⟨⟨"of:1"⟩, 5⟩ ⟨⟨"of:4"⟩, 5⟩ (roundTrip.map Link.ends)
      = [⟨none, ⟨⟨"of:1"⟩, 5⟩, ⟨⟨"of:1"⟩, 2⟩⟩,
         ⟨some "10.0.0.2", ⟨⟨"of:2"⟩, 1⟩, ⟨⟨"of:2"⟩, 2⟩⟩,
         ⟨none, ⟨⟨"of:3"⟩, 1⟩, ⟨⟨"of:4"⟩, 5⟩⟩] := by decide
  obtain ⟨hcut, -⟩ :=
    splitRoute_maximalRuns roundTripOwner? ⟨⟨"of:1"⟩, 5⟩ ⟨⟨"of:4"⟩, 5⟩ roundTrip hchain
  refine ⟨hchain, fun cut => ?_⟩
  rw [← hsplit]
  exact hcut cut

end Multidomain
