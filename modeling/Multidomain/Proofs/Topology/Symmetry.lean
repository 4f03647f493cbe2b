import Multidomain.Proofs.Orchestration.Contents
import Multidomain.Proofs.Orchestration.VirtualLinks
import Multidomain.Proofs.Topology.Attachment
import Multidomain.Proofs.Topology.ShortestRoute

/-!
# Links that lead both ways

A topology is symmetric when it has each of its links in both directions. Detecting a link and its
inverse keeps it so, in whichever order, and so does losing both: what decides whether a link is taken
up, a known end and a place in the topology that is still free, is the same for the two. In a symmetric
topology a chain can be walked backwards, so between two devices the shortest routes there and back
have one length, although they need not be the same.
-/

namespace Multidomain

/-- A link has the same two orientations as its inverse. -/
theorem Ends.orientation_inverted {e f : Ends} :
    e.inverted = f ∨ e.inverted = f.inverted ↔ e = f ∨ e = f.inverted := by
  have hback : e.inverted = e ∨ e.inverted = e.inverted := .inr rfl
  exact ⟨fun h => orientation_trans (orientation_symm hback) h,
    fun h => orientation_trans hback h⟩

namespace Topology

variable {t : Topology}

/-- Each link is there in both directions. -/
def Symmetric (t : Topology) : Prop := ∀ l ∈ t.links.items, l.reversed ∈ t.links.items

instance (t : Topology) : Decidable t.Symmetric :=
  inferInstanceAs (Decidable (∀ l ∈ t.links.items, l.reversed ∈ t.links.items))

theorem symmetric_iff_find? :
    t.Symmetric ↔ ∀ e, t.links.find? e.inverted = (t.links.find? e).map Link.reversed := by
  constructor
  · intro h e
    cases hfind : t.links.find? e with
    | some l =>
      obtain rfl := Roster.key_of_find? hfind
      exact Roster.mem_items_iff.1 (h l (Roster.mem_of_find? hfind))
    | none =>
      -- what is found the other way round would have its own inverse at `e`
      by_contra hsome
      obtain ⟨l, hl⟩ := Option.ne_none_iff_exists'.1 hsome
      have hends : l.ends = e.inverted := Roster.key_of_find? hl
      have hback : t.links.find? l.ends.inverted = some l.reversed :=
        Roster.mem_items_iff.1 (h l (Roster.mem_of_find? hl))
      rw [hends, Ends.inverted_inverted, hfind] at hback
      cases hback
  · intro h l hl
    rw [Roster.mem_items_iff] at hl ⊢
    show t.links.find? l.ends.inverted = some l.reversed
    rw [h, hl, Option.map_some]

theorem symmetric_empty : empty.Symmetric := by
  intro l hl
  cases hl

theorem Symmetric.of_links_eq {t' : Topology} (h : t.Symmetric) (hlinks : t'.links = t.links) :
    t'.Symmetric := by
  unfold Symmetric
  rwa [hlinks]

theorem reaches_inverted (t : Topology) (e : Ends) : t.reaches e.inverted = t.reaches e :=
  Bool.or_comm _ _

theorem links_detectBoth (t : Topology) (e : Ends) :
    ((t.detectLink (.direct e)).1.detectLink (.direct e.inverted)).1.links
      = t.links.putNewAll (([e, e.inverted].filter t.reaches).map .direct) := by
  rw [detectLink_eq, detectLink_eq]
  show (t.links.putNewAll _).putNewAll (([e.inverted].filter t.reaches).map .direct) = _
  rw [← Roster.putNewAll_append, ← List.map_append, ← List.filter_append]
  rfl

theorem find?_detectBoth (t : Topology) (e k : Ends) :
    ((t.detectLink (.direct e)).1.detectLink (.direct e.inverted)).1.links.find? k
      = (t.links.find? k).or
          (if t.reaches e = true ∧ (k = e ∨ k = e.inverted) then some (.direct k) else none) := by
  rw [links_detectBoth, Roster.find?_putNewAll]
  congr 1
  cases hreaches : t.reaches e with
  | false => simp [hreaches, reaches_inverted]
  | true =>
    have hthere : (Link.direct e).ends = e := rfl
    have hback : (Link.direct e.inverted).ends = e.inverted := rfl
    by_cases hk : k = e
    · subst hk
      simp [hreaches, hthere]
    · by_cases hk' : k = e.inverted
      · subst hk'
        simp [hreaches, reaches_inverted, hthere, hback, Ne.symm hk]
      · simp [hreaches, reaches_inverted, hthere, hback, hk, hk', Ne.symm hk, Ne.symm hk']

theorem find?_loseBoth (t : Topology) (e k : Ends) :
    ((t.loseLink e).1.loseLink e.inverted).1.links.find? k
      = if k = e ∨ k = e.inverted then none else t.links.find? k := by
  rw [find?_loseLink, find?_loseLink]
  by_cases hthere : k = e
  · simp [hthere]
  · by_cases hback : k = e.inverted <;> simp [hthere, hback]

namespace Symmetric

theorem detectBoth (h : t.Symmetric) (e : Ends) :
    ((t.detectLink (.direct e)).1.detectLink (.direct e.inverted)).1.Symmetric := by
  rw [symmetric_iff_find?] at h ⊢
  intro k
  rw [find?_detectBoth, find?_detectBoth, h, Option.map_or]
  congr 1
  simp only [Ends.orientation_inverted]
  split <;> rfl

theorem loseBoth (h : t.Symmetric) (e : Ends) :
    ((t.loseLink e).1.loseLink e.inverted).1.Symmetric := by
  rw [symmetric_iff_find?] at h ⊢
  intro k
  rw [find?_loseBoth, find?_loseBoth, h]
  simp only [Ends.orientation_inverted]
  split <;> rfl

end Symmetric

/-! ### Chains walked backwards -/

theorem leads_reversed {source target : DeviceId} {links : List Link}
    (h : Leads target source links) : Leads source target (links.map Link.reversed).reverse := by
  induction links generalizing source with
  | nil => exact h.symm
  | cons l rest ih =>
    obtain ⟨rfl, hrest⟩ := h
    rw [List.map_cons, List.reverse_cons]
    exact Leads.concat (l := l.reversed) (ih hrest)

namespace Symmetric

variable {a b : DeviceId} {links : List Link}

theorem chain_reversed (h : t.Symmetric) (hchain : t.Chain a b links) :
    t.Chain b a (links.map Link.reversed).reverse := by
  obtain ⟨hleads, hstored⟩ := hchain
  refine ⟨leads_reversed hleads, fun l hl => ?_⟩
  obtain ⟨k, hk, rfl⟩ := List.mem_map.1 (List.mem_reverse.1 hl)
  exact h k (hstored k hk)

theorem exists_chain_comm (h : t.Symmetric) (a b : DeviceId) (n : Nat) :
    (∃ chain, t.Chain a b chain ∧ chain.length = n)
      ↔ ∃ chain, t.Chain b a chain ∧ chain.length = n := by
  have hback : ∀ a b, (∃ chain, t.Chain a b chain ∧ chain.length = n) →
      ∃ chain, t.Chain b a chain ∧ chain.length = n := by
    rintro a b ⟨chain, hchain, rfl⟩
    exact ⟨_, h.chain_reversed hchain, by rw [List.length_reverse, List.length_map]⟩
  exact ⟨hback a b, hback b a⟩

/-- A route back is no longer than the route there. -/
theorem exists_route?_back (h : t.Symmetric) (hroute : t.route? a b = some links) :
    ∃ back, t.route? b a = some back ∧ back.length ≤ links.length := by
  obtain ⟨hleads, hstored, -⟩ := route?_spec hroute
  have hback := h.chain_reversed ⟨hleads, hstored⟩
  have hne : b ≠ a := by
    rintro rfl
    have hnone : t.route? b b = none := route?_eq_none_iff.2 (.inl rfl)
    rw [hnone] at hroute
    cases hroute
  obtain ⟨back, hfound⟩ := exists_route?_of_leads hne hback.1 hback.2
  refine ⟨back, hfound, ?_⟩
  calc back.length ≤ (links.map Link.reversed).reverse.length := length_le_of_route? hfound hback
    _ = links.length := by rw [List.length_reverse, List.length_map]

theorem length_route?_comm (h : t.Symmetric) (a b : DeviceId) :
    (t.route? a b).map List.length = (t.route? b a).map List.length := by
  cases hthere : t.route? a b with
  | some there =>
    obtain ⟨back, hback, hle⟩ := h.exists_route?_back hthere
    obtain ⟨again, hagain, hge⟩ := h.exists_route?_back hback
    obtain rfl : there = again := Option.some.inj (hthere.symm.trans hagain)
    rw [hback, Option.map_some, Option.map_some, Nat.le_antisymm hge hle]
  | none =>
    cases hback : t.route? b a with
    | some back =>
      obtain ⟨there, hfound, -⟩ := h.exists_route?_back hback
      rw [hthere] at hfound
      cases hfound
    | none => rfl

end Symmetric

end Topology

end Multidomain
