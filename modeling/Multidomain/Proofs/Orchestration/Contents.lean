import Multidomain.Proofs.Mapping.LinkBook
import Multidomain.Proofs.Orchestration.History
import Multidomain.Proofs.Roster

/-!
# The content of a domain

The tables of a domain are maps and its topology is made of sets: nothing that a node does with them
depends on the order in which their keys came. Two domains have the same content when each table of the
one holds what that of the other holds, whatever the order. The ports of a virtual device are the one
thing that has an order, and they must be the same one by one.
-/

namespace Multidomain

theorem Table.same_iff {κ ν : Type} [DecidableEq κ] {t u : Table κ ν} :
    t.Same u ↔ ∀ k, get? t k = get? u k := by
  constructor
  · intro h k
    rw [get?, get?, h k]
  · intro h k
    have hentry : ∀ t : Table κ ν, t.find? k = (get? t k).map fun v => (k, v) := by
      intro t
      cases hfind : t.find? k with
      | none => rw [get?, hfind]; rfl
      | some entry =>
        obtain rfl : entry.1 = k := Roster.key_of_find? hfind
        rw [get?, hfind]
        rfl
    rw [hentry, hentry, h k]

/-- The same virtual links, carried by the same real links with the same flags. -/
structure LinkBook.Same (b b' : LinkBook) : Prop where
  pairs : ∀ pair, b.backers.contains pair = b'.backers.contains pair
  flags : ∀ pair heading, b.flag? pair heading = b'.flag? pair heading
  carried : b.carried.Same b'.carried
  spans : b.spans.Same b'.spans

structure Registry.Same (r r' : Registry) : Prop where
  owners : r.owners.Same r'.owners
  natives : r.natives.Same r'.natives
  aliases : r.aliases.Same r'.aliases
  virtuals : r.virtuals.Same r'.virtuals
  ports : r.ports.Same r'.ports
  links : r.links.Same r'.links
  hosts : r.hosts.Same r'.hosts
  virtualHosts : r.virtualHosts.Same r'.virtualHosts

structure Topology.Same (t t' : Topology) : Prop where
  devices : t.devices.Same t'.devices
  links : t.links.Same t'.links
  hosts : t.hosts.Same t'.hosts
  flows : t.flows.Same t'.flows

structure Domain.Same (d d' : Domain) : Prop where
  registry : d.registry.Same d'.registry
  topology : d.topology.Same d'.topology

theorem LinkBook.Same.refl (b : LinkBook) : b.Same b :=
  ⟨fun _ => rfl, fun _ _ => rfl, .refl _, .refl _⟩

theorem Registry.Same.refl (r : Registry) : r.Same r :=
  ⟨.refl _, .refl _, .refl _, .refl _, .refl _, .refl _, .refl _, .refl _⟩

/-- A run of reports is a run of what they are read as. -/
theorem Domain.hearAll_eq_foldl {α : Type} {mode : Abstraction} {reports : List Report}
    (read : Report → Option α) (act : Domain → α → Domain)
    (hhear : ∀ r ∈ reports, ∀ d : Domain, d.hear mode r = match read r with
      | none => d
      | some a => act d a) (d : Domain) :
    d.hearAll mode reports = (reports.filterMap read).foldl act d := by
  induction reports generalizing d with
  | nil => rfl
  | cons r rest ih =>
    rw [List.forall_mem_cons] at hhear
    obtain ⟨hfirst, hrest⟩ := hhear
    refine (ih hrest (d.hear mode r)).trans ?_
    cases hread : read r with
    | none => rw [hfirst, hread, List.filterMap_cons_none hread]
    | some a => rw [hfirst, hread, List.filterMap_cons_some hread, List.foldl_cons]

/-! ### What the topology does with one notice -/

namespace Topology

theorem connectDevice_eq (t : Topology) (d : Device) :
    (t.connectDevice d).1 = { t with devices := t.devices.putNew d } := by
  unfold connectDevice Roster.putNew knows
  split <;> rfl

/-- A device at one of the ends of the link is known. -/
def reaches (t : Topology) (e : Ends) : Bool := t.knows e.src.device || t.knows e.dst.device

theorem detectLink_eq (t : Topology) (e : Ends) :
    (t.detectLink (.direct e)).1
      = { t with links := t.links.putNewAll (([e].filter t.reaches).map .direct) } := by
  have hends : (Link.direct e).ends = e := rfl
  unfold detectLink
  cases hreaches : t.reaches e with
  | false =>
    have hunknown : (!t.knows (Link.direct e).src.device && !t.knows (Link.direct e).dst.device)
        = true := by
      rw [reaches, Bool.or_eq_false_iff] at hreaches
      simp [Link.src, Link.dst, hends, hreaches.1, hreaches.2]
    rw [if_pos hunknown]
    simp [hreaches, Roster.putNewAll]
  | true =>
    have hknown : ¬ (!t.knows (Link.direct e).src.device && !t.knows (Link.direct e).dst.device)
        = true := by
      rw [← Bool.not_or, Bool.not_eq_true']
      rw [reaches] at hreaches
      simp [Link.src, Link.dst, hends, hreaches]
    rw [if_neg hknown]
    simp only [hreaches, List.filter_cons_of_pos, List.filter_nil, List.map_cons, List.map_nil,
      Roster.putNewAll, List.foldl_cons, List.foldl_nil, Roster.putNew]
    split <;> rfl

theorem loseLink_eq (t : Topology) (e : Ends) :
    (t.loseLink e).1 = { t with links := t.links.erase e } := by
  unfold loseLink
  cases hfind : t.links.find? e with
  | some l => rfl
  | none =>
    have hgone : t.links.contains e = false := by rw [Roster.contains, hfind]; rfl
    rw [Roster.erase_eq_self hgone]

theorem detectHost_eq (t : Topology) (h : Host) :
    (t.detectHost h).1
      = { t with hosts := t.hosts.putAll ([h].filter fun h => t.knows h.location.device) } := by
  unfold detectHost
  cases hknown : t.knows h.location.device <;> simp [hknown, Roster.putAll]

end Topology

end Multidomain
