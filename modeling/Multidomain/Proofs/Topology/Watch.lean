import Mathlib.Data.List.Induction
import Multidomain.Proofs.Roster
import Multidomain.Topology.Overview

/-!
# A topology and the overview that listens to it

An overview hears nothing but the events of a topology, so what it shows can be held against the
topology. It tells links apart by heading and the topology by ends; the two agree as long as the
topology never holds two links of one heading. Then the links that the overview shows are the links
of the topology, and whatever is done to the topology does one of three things to a view of the
links: nothing, or a link enters under a heading that was not shown, or the link that was shown under
a heading leaves. `Turn` names the three, and all that is said of changes elsewhere rests on it.
-/

namespace Multidomain

/-- Something that is done to a topology. -/
inductive StoreOp where
  | connect (device : Device)
  | detect (link : Link)
  | lose (ends : Ends)
  | attach (host : Host)
  | install (rules : List FlowRule)
  deriving DecidableEq, Repr

/-- Do it. -/
def Topology.act (t : Topology) : StoreOp → Topology × List Event
  | .connect device => t.connectDevice device
  | .detect link => t.detectLink link
  | .lose ends => t.loseLink ends
  | .attach host => t.detectHost host
  | .install rules => (t.applyFlowRules rules, [])

/-- A look that begins a new period of changes. -/
inductive Look where
  | links (view : LinkView)
  | edgeUpdates (view : LinkView)
  deriving DecidableEq, Repr

/-- The overview after a look. -/
def Overview.look (o : Overview) : Look → Overview
  | .links view => (o.readLinks view).2
  | .edgeUpdates view => (o.takeEdgeUpdates view).2

theorem Overview.look_eq (o : Overview) (look : Look) : o.look look = o.clearChanges := by
  cases look <;> rfl

/-- A topology and an overview that has listened to it from the start. -/
structure Watch where
  topology : Topology := .empty
  overview : Overview := .empty
  deriving DecidableEq, Repr

/-- What can happen to a watched topology. -/
inductive WatchStep where
  | act (op : StoreOp)
  | look (look : Look)
  deriving DecidableEq, Repr

namespace Watch

/-- The topology is acted on and the overview hears of it. -/
def act (w : Watch) (op : StoreOp) : Watch where
  topology := (w.topology.act op).1
  overview := w.overview.observeAll (w.topology.act op).2

/-- The overview is looked at. -/
def look (w : Watch) (look : Look) : Watch := { w with overview := w.overview.look look }

def step (w : Watch) : WatchStep → Watch
  | .act op => w.act op
  | .look look => w.look look

/-- What several steps lead to. -/
def run (w : Watch) (steps : List WatchStep) : Watch := steps.foldl step w

/-- What several operations lead to when nobody looks. -/
def actAll (w : Watch) (ops : List StoreOp) : Watch := ops.foldl act w

theorem run_concat (w : Watch) (steps : List WatchStep) (s : WatchStep) :
    w.run (steps ++ [s]) = (w.run steps).step s := by
  simp [run, List.foldl_append]

theorem actAll_concat (w : Watch) (ops : List StoreOp) (op : StoreOp) :
    w.actAll (ops ++ [op]) = (w.actAll ops).act op := by
  simp [actAll, List.foldl_append]

theorem run_append_look (w : Watch) (before : List WatchStep) (l : Look) (ops : List StoreOp) :
    w.run (before ++ .look l :: ops.map .act) = ((w.run before).look l).actAll ops := by
  simp [run, actAll, step, List.foldl_append, List.foldl_map]

end Watch

/-- No two links have the same heading. -/
def Topology.NoParallels (t : Topology) : Prop :=
  ∀ a ∈ t.links.items, ∀ b ∈ t.links.items, a.heading = b.heading → a = b

instance (t : Topology) : Decidable t.NoParallels :=
  inferInstanceAs (Decidable (∀ a ∈ t.links.items, ∀ b ∈ t.links.items,
    a.heading = b.heading → a = b))

namespace Overview

/-- The links that a view is about, by heading. -/
def roster (o : Overview) : LinkView → Roster Link.heading
  | .implicit => o.interlinks
  | .explicit | .summary => o.links

theorem linksOf_eq (o : Overview) (view : LinkView) : o.linksOf view = (o.roster view).items := by
  cases view <;> rfl

/-- Nothing that a view of the links is about differs. -/
structure SameLinks (o o' : Overview) : Prop where
  links : o'.links = o.links
  interlinks : o'.interlinks = o.interlinks
  changes : o'.changes = o.changes
  interchanges : o'.interchanges = o.interchanges

end Overview

namespace Topology

variable {t : Topology} {op : StoreOp}

/-- What an operation does to the links, and what it tells of them. -/
inductive LinkEffect (t : Topology) : Topology → List Event → Prop where
  | none {t' : Topology} {events : List Event} (hlinks : t'.links = t.links)
      (hquiet : ∀ o : Overview, o.SameLinks (o.observeAll events)) : LinkEffect t t' events
  | added {t' : Topology} (l : Link) (hnew : t.links.find? l.ends = .none)
      (hlinks : t'.links = t.links.put l) : LinkEffect t t' [.linkAdded l]
  | removed {t' : Topology} (l : Link) (hheld : t.links.find? l.ends = some l)
      (hlinks : t'.links = t.links.erase l.ends) : LinkEffect t t' [.linkRemoved l]

theorem linkEffect_act (t : Topology) (op : StoreOp) :
    LinkEffect t (t.act op).1 (t.act op).2 := by
  have hnothing : ∀ o : Overview, o.SameLinks (o.observeAll []) := fun o => ⟨rfl, rfl, rfl, rfl⟩
  cases op with
  | connect device =>
    simp only [act, connectDevice]
    split
    · exact .none rfl hnothing
    · exact .none rfl fun o => ⟨rfl, rfl, rfl, rfl⟩
  | detect link =>
    simp only [act, detectLink]
    split
    · exact .none rfl hnothing
    · split
      · exact .none rfl hnothing
      · next hheld => exact .added link (by simpa [Roster.contains] using hheld) rfl
  | lose ends =>
    simp only [act, loseLink]
    cases hfind : t.links.find? ends with
    | none => exact .none rfl hnothing
    | some l =>
      obtain rfl : l.ends = ends := Roster.key_of_find? hfind
      exact .removed l hfind rfl
  | attach host =>
    simp only [act, detectHost]
    split
    · refine .none rfl fun o => ?_
      split
      · exact ⟨rfl, rfl, rfl, rfl⟩
      · split <;> exact ⟨rfl, rfl, rfl, rfl⟩
    · exact .none rfl hnothing
  | install rules => exact .none rfl hnothing

end Topology

/-- What happens to a view of the links and to its changes when something is done to the topology:
nothing, a link enters under a heading that was not shown, or the link shown under its heading
leaves. -/
inductive Turn (r : Roster Link.heading) (c : ChangeLog) :
    Roster Link.heading → ChangeLog → Prop where
  | still : Turn r c r c
  | enters (l : Link) (hnew : r.find? l.heading = none) : Turn r c (r.put l) (c.put l)
  | leaves (l : Link) (hshown : r.find? l.heading = some l) :
      Turn r c (r.erase l.heading) (c.remove l)

namespace Watch

/-- The overview shows the links of the topology, and those that lead out are among them. -/
structure Faithful (w : Watch) : Prop where
  links : ∀ l, l ∈ w.overview.links.items ↔ l ∈ w.topology.links.items
  interlinks : ∀ l, l ∈ w.overview.interlinks.items → l ∈ w.topology.links.items

theorem faithful_start : Faithful {} where
  links _ := Iff.rfl
  interlinks _ h := h

variable {w : Watch}

theorem Faithful.look (h : w.Faithful) (l : Look) : (w.look l).Faithful := by
  constructor
  · intro link
    simp only [Watch.look, Overview.look_eq]
    exact h.links link
  · intro link
    simp only [Watch.look, Overview.look_eq]
    exact h.interlinks link

end Watch

/-- A link that is new to a topology without parallels has a heading of its own. -/
theorem Topology.NoParallels.heading_new {t t' : Topology} {l k : Link} (hplain : t'.NoParallels)
    (hlinks : t'.links = t.links.put l) (hnew : t.links.find? l.ends = none)
    (hk : k ∈ t.links.items) : k.heading ≠ l.heading := by
  intro hheading
  have hends : l.ends ≠ k.ends := by
    intro hends
    rw [Roster.mem_items_iff, ← hends, hnew] at hk
    cases hk
  have hk' : k ∈ t'.links.items := hlinks ▸ Roster.mem_put.2 (.inr ⟨hk, hends⟩)
  have hl' : l ∈ t'.links.items := hlinks ▸ Roster.mem_put.2 (.inl rfl)
  exact hends (congrArg Link.ends (hplain k hk' l hl' hheading)).symm

/-- In a topology without parallels ends and headings tell the same links apart. -/
theorem Topology.NoParallels.heading_ne_iff {t : Topology} {l k : Link} (hplain : t.NoParallels)
    (hl : l ∈ t.links.items) (hk : k ∈ t.links.items) :
    k.heading ≠ l.heading ↔ k.ends ≠ l.ends := by
  constructor
  · intro hheading hends
    exact hheading (congrArg Ends.heading hends)
  · intro hends hheading
    exact hends (congrArg Link.ends (hplain k hk l hl hheading))

namespace Overview

variable {o : Overview} {l : Link}

theorem turn_putLink (view : LinkView) (hlinks : o.links.find? l.heading = none)
    (hinterlinks : o.interlinks.find? l.heading = none) :
    Turn (o.roster view) (o.changesOf view) ((o.putLink l).roster view)
      ((o.putLink l).changesOf view) := by
  unfold putLink
  cases view with
  | implicit =>
    split
    · exact .enters l hinterlinks
    · exact .still
  | explicit | summary =>
    split <;> exact .enters l hlinks

theorem turn_removeLink (view : LinkView) (hlinks : o.links.find? l.heading = some l)
    (hinterlinks : ∀ k, o.interlinks.find? l.heading = some k → k = l) :
    Turn (o.roster view) (o.changesOf view) ((o.removeLink l).roster view)
      ((o.removeLink l).changesOf view) := by
  unfold removeLink
  cases view with
  | implicit =>
    split
    · next hheld =>
      obtain ⟨k, hk⟩ := Option.isSome_iff_exists.1 hheld
      obtain rfl := hinterlinks k hk
      exact .leaves k hk
    · exact .still
  | explicit | summary =>
    split <;> exact .leaves l hlinks

theorem links_putLink : (o.putLink l).links = o.links.put l := by
  unfold putLink
  split <;> rfl

theorem links_removeLink : (o.removeLink l).links = o.links.erase l.heading := by
  unfold removeLink
  split <;> rfl

/-- Only the link that was added can be new among those that lead out. -/
theorem mem_interlinks_putLink {k : Link} (h : k ∈ (o.putLink l).interlinks.items) :
    k = l ∨ (k ∈ o.interlinks.items) := by
  unfold putLink at h
  split at h
  · exact (Roster.mem_put.1 h).imp_right And.left
  · exact .inr h

theorem mem_interlinks_removeLink {k : Link} (h : k ∈ (o.removeLink l).interlinks.items) :
    k ∈ o.interlinks.items ∧ k.heading ≠ l.heading := by
  unfold removeLink at h
  split at h
  · exact Roster.mem_erase.1 h
  · next hheld =>
    refine ⟨h, fun hheading => ?_⟩
    apply hheld
    exact Roster.contains_iff.2 (hheading ▸ List.mem_map_of_mem h)

end Overview

namespace Watch

variable {w : Watch}

theorem Faithful.find?_links_eq_none {l : Link} (h : w.Faithful)
    (hnew : ∀ k ∈ w.topology.links.items, k.heading ≠ l.heading) :
    w.overview.links.find? l.heading = none ∧ w.overview.interlinks.find? l.heading = none := by
  constructor
  · cases hfind : w.overview.links.find? l.heading with
    | none => rfl
    | some k =>
      exact absurd (Roster.key_of_find? hfind) (hnew k ((h.links k).1 (Roster.mem_of_find? hfind)))
  · cases hfind : w.overview.interlinks.find? l.heading with
    | none => rfl
    | some k =>
      exact absurd (Roster.key_of_find? hfind)
        (hnew k (h.interlinks k (Roster.mem_of_find? hfind)))

theorem Faithful.find?_links_eq_some {l : Link} (h : w.Faithful) (hplain : w.topology.NoParallels)
    (hl : l ∈ w.topology.links.items) :
    w.overview.links.find? l.heading = some l
      ∧ ∀ k, w.overview.interlinks.find? l.heading = some k → k = l := by
  refine ⟨Roster.mem_items_iff.1 ((h.links l).2 hl), fun k hk => ?_⟩
  have hheld := h.interlinks k (Roster.mem_of_find? hk)
  exact hplain k hheld l hl (Roster.key_of_find? hk)

/-- Each view takes its turn. -/
theorem Faithful.turn {t' : Topology} {events : List Event} (h : w.Faithful)
    (heffect : w.topology.LinkEffect t' events) (hplain : w.topology.NoParallels)
    (hplain' : t'.NoParallels) (view : LinkView) :
    Turn (w.overview.roster view) (w.overview.changesOf view)
      ((w.overview.observeAll events).roster view)
      ((w.overview.observeAll events).changesOf view) := by
  cases heffect with
  | none hlinks hquiet =>
    have hsame := hquiet w.overview
    cases view with
    | implicit =>
      simp only [Overview.roster, Overview.changesOf, hsame.interlinks, hsame.interchanges]
      exact .still
    | explicit | summary =>
      simp only [Overview.roster, Overview.changesOf, hsame.links, hsame.changes]
      exact .still
  | added l hnew hlinks =>
    obtain ⟨hnone, hnone'⟩ :=
      h.find?_links_eq_none (l := l) fun k hk => hplain'.heading_new hlinks hnew hk
    exact Overview.turn_putLink view hnone hnone'
  | removed l hheld hlinks =>
    obtain ⟨hsome, hinter⟩ := h.find?_links_eq_some hplain (Roster.mem_of_find? hheld)
    exact Overview.turn_removeLink view hsome hinter

theorem Faithful.observe {t' : Topology} {events : List Event} (h : w.Faithful)
    (heffect : w.topology.LinkEffect t' events) (hplain : w.topology.NoParallels)
    (hplain' : t'.NoParallels) : Faithful ⟨t', w.overview.observeAll events⟩ := by
  cases heffect with
  | none hlinks hquiet =>
    have hsame := hquiet w.overview
    constructor
    · intro k
      simp only [hsame.links, hlinks]
      exact h.links k
    · intro k
      simp only [hsame.interlinks, hlinks]
      exact h.interlinks k
  | added l hnew hlinks =>
    have hfresh : ∀ k ∈ w.topology.links.items, k.heading ≠ l.heading :=
      fun k hk => hplain'.heading_new hlinks hnew hk
    have hends : ∀ k ∈ w.topology.links.items, l.ends ≠ k.ends :=
      fun k hk e => hfresh k hk (congrArg Ends.heading e).symm
    constructor
    · intro k
      change k ∈ (w.overview.putLink l).links.items ↔ _
      rw [Overview.links_putLink, hlinks, Roster.mem_put, Roster.mem_put, h.links k]
      refine or_congr_right (and_congr_right fun hk => ?_)
      exact iff_of_true (hfresh k hk).symm (hends k hk)
    · intro k hk
      rw [hlinks, Roster.mem_put]
      refine (Overview.mem_interlinks_putLink hk).imp_right fun hk => ?_
      have hheld := h.interlinks k hk
      exact ⟨hheld, hends k hheld⟩
  | removed l hheld hlinks =>
    have hl := Roster.mem_of_find? hheld
    constructor
    · intro k
      change k ∈ (w.overview.removeLink l).links.items ↔ _
      rw [Overview.links_removeLink, hlinks, Roster.mem_erase, Roster.mem_erase, h.links k]
      exact and_congr_right fun hk => hplain.heading_ne_iff hl hk
    · intro k hk
      obtain ⟨hk, hheading⟩ := Overview.mem_interlinks_removeLink hk
      have hheld := h.interlinks k hk
      rw [hlinks, Roster.mem_erase]
      exact ⟨hheld, (hplain.heading_ne_iff hl hheld).1 hheading⟩

theorem Faithful.turn_act (h : w.Faithful) (op : StoreOp) (hplain : w.topology.NoParallels)
    (hplain' : (w.act op).topology.NoParallels) (view : LinkView) :
    Turn (w.overview.roster view) (w.overview.changesOf view)
      ((w.act op).overview.roster view) ((w.act op).overview.changesOf view) :=
  h.turn (Topology.linkEffect_act w.topology op) hplain hplain' view

theorem Faithful.act (h : w.Faithful) (op : StoreOp) (hplain : w.topology.NoParallels)
    (hplain' : (w.act op).topology.NoParallels) : (w.act op).Faithful :=
  h.observe (Topology.linkEffect_act w.topology op) hplain hplain'

/-- A watch is faithful as long as its topology never holds parallels. -/
theorem faithful_run (steps : List WatchStep)
    (hplain : ∀ done, done <+: steps → (run {} done).topology.NoParallels) :
    (run {} steps).Faithful := by
  induction steps using List.reverseRecOn with
  | nil => exact faithful_start
  | append_singleton steps s ih =>
    have hearlier : ∀ done, done <+: steps → (run {} done).topology.NoParallels :=
      fun done h => hplain done (h.trans (List.prefix_append steps [s]))
    have hlast := hplain _ List.prefix_rfl
    rw [run_concat] at hlast ⊢
    cases s with
    | act op => exact (ih hearlier).act op (hearlier _ List.prefix_rfl) hlast
    | look l => exact (ih hearlier).look l

end Watch

end Multidomain
