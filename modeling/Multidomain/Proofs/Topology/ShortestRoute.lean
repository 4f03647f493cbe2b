import Mathlib.Data.List.Induction
import Multidomain.Proofs.Topology.Route

/-!
# Shortest routes

The rounds of the search are the distances from the source. Before round `n` the trails have `n`
links each, every device that `n` links or fewer lead to has been seen, and no chain of fewer than
`n` links leads to the target. A trail that is found in round `n` is therefore as short as any chain.
The order in which the topology holds its links decides only between trails of one round.
-/

namespace Multidomain

/-- The links are a chain from one device to another, and the topology has them all. -/
def Topology.Chain (t : Topology) (source target : DeviceId) (links : List Link) : Prop :=
  Leads target source links ∧ ∀ l ∈ links, l ∈ t.links.items

theorem Leads.of_concat {source target : DeviceId} {links : List Link} {l : Link}
    (h : Leads target source (links ++ [l])) :
    Leads l.src.device source links ∧ l.dst.device = target := by
  induction links generalizing source with
  | nil => exact ⟨h.1.symm, h.2⟩
  | cons first rest ih =>
    obtain ⟨hrest, hdst⟩ := ih h.2
    exact ⟨⟨h.1, hrest⟩, hdst⟩

namespace Frontier

variable {links : List Link} {f : Frontier} {t u : Trail}

theorem mem_trails_foldl_follow (steps : List Link)
    (h : u ∈ (steps.foldl (follow t) f).trails) :
    u ∈ f.trails ∨ ∃ l ∈ steps, u = t.extend l := by
  induction steps generalizing f with
  | nil => exact .inl h
  | cons l steps ih =>
    have hfirst : u ∈ (follow t f l).trails → u ∈ f.trails ∨ u = t.extend l := by
      intro hu
      unfold follow at hu
      split at hu
      · simpa using hu
      · exact .inl hu
    obtain hold | ⟨k, hk, hext⟩ := ih h
    · exact (hfirst hold).imp_right fun hext => ⟨l, List.mem_cons_self, hext⟩
    · exact .inr ⟨k, List.mem_cons_of_mem l hk, hext⟩

theorem mem_trails_foldl_trails (trails : List Trail)
    (h : u ∈ (trails.foldl (fun f t => links.foldl (follow t) f) f).trails) :
    u ∈ f.trails ∨ ∃ t ∈ trails, ∃ l ∈ links, u = t.extend l := by
  induction trails generalizing f with
  | nil => exact .inl h
  | cons t trails ih =>
    obtain hfirst | ⟨v, hv, hext⟩ := ih h
    · obtain hold | hext := mem_trails_foldl_follow links hfirst
      · exact .inl hold
      · exact .inr ⟨t, List.mem_cons_self, hext⟩
    · exact .inr ⟨v, List.mem_cons_of_mem t hv, hext⟩

/-- Every trail of the next round is one of this round and one link more. -/
theorem mem_trails_advance {seen : List DeviceId} {trails : List Trail}
    (h : u ∈ (advance links seen trails).trails) : ∃ t ∈ trails, ∃ l ∈ links, u = t.extend l := by
  obtain hold | hext := mem_trails_foldl_trails trails h
  · exact absurd hold (by simp)
  · exact hext

end Frontier

/-- How far a search has come before round `n`. -/
structure Level (links : List Link) (source target : DeviceId) (n : Nat) (seen : List DeviceId)
    (trails : List Trail) : Prop where
  length_eq : ∀ t ∈ trails, t.links.length = n
  near : ∀ device chain, Leads device source chain → (∀ l ∈ chain, l ∈ links) →
    chain.length ≤ n → device ∈ seen
  far : ∀ chain, Leads target source chain → (∀ l ∈ chain, l ∈ links) → n ≤ chain.length

namespace Level

variable {links : List Link} {source target : DeviceId} {n : Nat} {seen : List DeviceId}
  {trails : List Trail}

theorem start (links : List Link) (source target : DeviceId) :
    Level links source target 0 [source] [⟨source, []⟩] where
  length_eq t ht := by
    rw [List.mem_singleton.1 ht]
    rfl
  near device chain hchain _ hlength := by
    obtain rfl := List.length_eq_zero_iff.1 (Nat.le_zero.1 hlength)
    exact List.mem_singleton.2 (Eq.symm hchain)
  far _ _ _ := Nat.zero_le _

/-- A device that has been seen ends a trail, or all that is one link away from it has been seen. -/
theorem dst_mem_advance (h : Searching links source target seen trails) {l : Link} (hl : l ∈ links)
    (hsrc : l.src.device ∈ seen) : l.dst.device ∈ (Frontier.advance links seen trails).seen := by
  obtain ⟨hmono, hnext⟩ := h.grows
  obtain ⟨t, ht, hreached⟩ | ⟨-, hbehind⟩ := h.behind l.src.device hsrc
  · exact hnext t ht l hl hreached.symm
  · exact hmono _ (hbehind l hl rfl)

theorem advance (hlevel : Level links source target n seen trails)
    (h : Searching links source target seen trails) (hnot : ∀ t ∈ trails, t.reached ≠ target) :
    Level links source target (n + 1) (Frontier.advance links seen trails).seen
      (Frontier.advance links seen trails).trails := by
  constructor
  case length_eq =>
    intro u hu
    obtain ⟨t, ht, l, -, rfl⟩ := Frontier.mem_trails_advance hu
    show t.links.length + 1 = n + 1
    rw [hlevel.length_eq t ht]
  case near =>
    intro device chain hchain hstored hlength
    obtain rfl | ⟨init, l, rfl⟩ := List.eq_nil_or_concat' chain
    · exact h.grows.1 _ (hlevel.near device [] hchain hstored (Nat.zero_le n))
    · obtain ⟨hinit, rfl⟩ := hchain.of_concat
      have hshort : init.length ≤ n := by
        rw [List.length_append, List.length_singleton] at hlength
        omega
      have hsrc := hlevel.near _ init hinit (fun k hk => hstored k (by simp [hk])) hshort
      exact dst_mem_advance h (hstored l (by simp)) hsrc
  case far =>
    intro chain hchain hstored
    have hle := hlevel.far chain hchain hstored
    by_contra hlt
    have htarget := hlevel.near target chain hchain hstored (by omega)
    obtain ⟨t, ht, hreached⟩ | ⟨hne, -⟩ := h.behind target htarget
    · exact hnot t ht hreached
    · exact hne rfl

/-- No chain is shorter than what the search finds. -/
theorem length_le_of_searchTrail {rounds : Nat} {t : Trail}
    (hlevel : Level links source target n seen trails)
    (h : Searching links source target seen trails)
    (hfound : searchTrail links target rounds seen trails = some t) {chain : List Link}
    (hchain : Leads target source chain) (hstored : ∀ l ∈ chain, l ∈ links) :
    t.links.length ≤ chain.length := by
  -- a trail of the present round has as many links as rounds have gone by
  have hnow : ∀ u, trails.find? (fun t => t.reached = target) = some u →
      u.links.length ≤ chain.length := by
    intro u hu
    rw [hlevel.length_eq u (List.mem_of_find?_eq_some hu)]
    exact hlevel.far chain hchain hstored
  induction rounds generalizing n seen trails with
  | zero =>
    rw [searchTrail] at hfound
    cases hfind : trails.find? fun t => t.reached = target with
    | none => simp [hfind] at hfound
    | some u =>
      obtain rfl : u = t := by simpa [hfind] using hfound
      exact hnow u hfind
  | succ rounds ih =>
    rw [searchTrail] at hfound
    cases hfind : trails.find? fun t => t.reached = target with
    | none =>
      rw [hfind] at hfound
      have hnot : ∀ u ∈ trails, u.reached ≠ target :=
        fun u hu => by simpa using List.find?_eq_none.1 hfind u hu
      have hnext := hlevel.advance h hnot
      refine ih hnext (h.advance hnot) hfound ?_
      intro u hu
      rw [hnext.length_eq u (List.mem_of_find?_eq_some hu)]
      exact hnext.far chain hchain hstored
    | some u =>
      obtain rfl : u = t := by simpa [hfind] using hfound
      exact hnow u hfind

end Level

namespace Topology

variable {t : Topology} {source target : DeviceId} {links : List Link}

theorem length_le_of_route? (h : t.route? source target = some links) {chain : List Link}
    (hchain : t.Chain source target chain) : links.length ≤ chain.length := by
  unfold route? at h
  split at h
  · cases h
  · obtain ⟨trail, hfound, rfl⟩ := Option.map_eq_some_iff.1 h
    rw [List.length_reverse]
    exact (Level.start t.links.items source target).length_le_of_searchTrail
      (Searching.start t.links.items source target) hfound hchain.1 hchain.2

theorem route?_eq_none_iff :
    t.route? source target = none ↔ source = target ∨ ∀ chain, ¬ t.Chain source target chain := by
  constructor
  · intro hnone
    by_cases hsame : source = target
    · exact .inl hsame
    · refine .inr fun chain hchain => ?_
      obtain ⟨way, hway⟩ := exists_route?_of_leads hsame hchain.1 hchain.2
      simp [hnone] at hway
  · intro h
    cases hroute : t.route? source target with
    | none => rfl
    | some way =>
      obtain ⟨hleads, hstored, -⟩ := route?_spec hroute
      obtain rfl | hno := h
      · simp [route?] at hroute
      · exact absurd ⟨hleads, hstored⟩ (hno way)

theorem ne_nil_of_route? (h : t.route? source target = some links) : links ≠ [] := by
  rintro rfl
  obtain ⟨hsame, -, -⟩ := route?_spec h
  have hnone : t.route? source target = none := route?_eq_none_iff.2 (.inl hsame)
  simp [hnone] at h

/-- **The search finds a shortest route.** It finds none exactly from a device to itself and where no
chain of the topology's links leads; what it finds is such a chain, visits no device twice and is
no longer than any other, in whatever order the topology holds its links. -/
theorem route?_isShortest (t : Topology) (source target : DeviceId) :
    (t.route? source target = none ↔ source = target ∨ ∀ chain, ¬ t.Chain source target chain)
      ∧ ∀ links, t.route? source target = some links →
          links ≠ [] ∧ t.Chain source target links ∧ (devicesAlong source links).Nodup
            ∧ ∀ chain, t.Chain source target chain → links.length ≤ chain.length := by
  refine ⟨route?_eq_none_iff, fun links hroute => ?_⟩
  obtain ⟨hleads, hstored, hnodup⟩ := route?_spec hroute
  exact ⟨ne_nil_of_route? hroute, ⟨hleads, hstored⟩, hnodup,
    fun chain hchain => length_le_of_route? hroute hchain⟩

end Topology

end Multidomain
