import Mathlib.Data.List.Find
import Mathlib.Data.List.Induction
import Mathlib.Data.List.Pairwise
import Multidomain.Roster

/-!
# Members of rosters

Who is in a roster after a value has been put or erased, and after many have been put. When several
values of a list compete for one key, the last of them stays where each is put, and the first where
only new keys are taken; `find?_putAll` and `find?_putNewAll` say so. Two rosters are the same in
content when they hold the same values, whatever the order. In this sense it makes no difference to
put a list of values twice, and no difference in which order several senders put their shares as long
as any two that put a value under one key put the same.
-/

namespace Multidomain

/-- What is found first does not depend on the order of the places, if any two places where something
is found agree on it. -/
theorem findSome?_eq_of_perm {α β : Type} {f : α → Option β} {places places' : List α}
    (hperm : places.Perm places')
    (hagree : places.Pairwise fun x y => ∀ a ∈ f x, ∀ b ∈ f y, a = b) :
    places.findSome? f = places'.findSome? f := by
  have hall : ∀ x ∈ places, ∀ y ∈ places, ∀ a ∈ f x, ∀ b ∈ f y, a = b := by
    have : Std.Symm fun x y => ∀ a ∈ f x, ∀ b ∈ f y, a = b :=
      ⟨fun x y h b hb a ha => (h a ha b hb).symm⟩
    refine fun x hx y hy => hagree.forall_of_forall (fun z _ a ha b hb => ?_) hx hy
    exact Option.some.inj (ha.symm.trans hb)
  have hiff : ∀ {l : List α}, (∀ x, x ∈ l ↔ x ∈ places) → ∀ a,
      l.findSome? f = some a ↔ ∃ x ∈ places, f x = some a := by
    intro l hl a
    constructor
    · intro h
      obtain ⟨x, hx, hfx⟩ := List.exists_of_findSome?_eq_some h
      exact ⟨x, (hl x).1 hx, hfx⟩
    · rintro ⟨x, hx, hfx⟩
      cases hfirst : l.findSome? f with
      | none =>
        rw [List.findSome?_eq_none_iff] at hfirst
        exact nomatch hfx.symm.trans (hfirst x ((hl x).2 hx))
      | some b =>
        obtain ⟨y, hy, hfy⟩ := List.exists_of_findSome?_eq_some hfirst
        rw [hall y ((hl y).1 hy) x hx b hfy a hfx]
  refine Option.ext fun a => ?_
  rw [hiff (fun _ => Iff.rfl), hiff fun _ => hperm.mem_iff.symm]

theorem eraseDups_concat {α : Type} [DecidableEq α] (xs : List α) (x : α) :
    (xs ++ [x]).eraseDups = if x ∈ xs then xs.eraseDups else xs.eraseDups ++ [x] := by
  rw [List.eraseDups_append, List.removeAll]
  split
  · next hold => rw [List.filter_cons_of_neg (by simpa using hold)]; simp
  · next hnew => rw [List.filter_cons_of_pos (by simpa using hnew), List.filter_nil]; rfl

theorem nodup_eraseDups {α : Type} [DecidableEq α] (xs : List α) : xs.eraseDups.Nodup := by
  induction xs using List.reverseRecOn with
  | nil => exact List.nodup_nil
  | append_singleton xs x ih =>
    rw [eraseDups_concat]
    split
    · exact ih
    · next hnew =>
      refine List.nodup_append.2 ⟨ih, List.pairwise_singleton _ x, fun y hy z hz => ?_⟩
      obtain rfl := List.mem_singleton.1 hz
      exact fun heq => hnew (heq ▸ List.mem_eraseDups.1 hy)

namespace Roster

variable {α κ : Type} {key : α → κ} [DecidableEq κ]

theorem eq_of_key_eq {r : Roster key} {a b : α} (ha : a ∈ r.items) (hb : b ∈ r.items)
    (h : key a = key b) : a = b := by
  rw [mem_items_iff] at ha hb
  exact Option.some.inj (ha.symm.trans (h ▸ hb))

theorem mem_put {r : Roster key} {a b : α} :
    b ∈ (r.put a).items ↔ b = a ∨ (b ∈ r.items ∧ key a ≠ key b) := by
  rw [mem_items_iff, find?_put, mem_items_iff]
  by_cases hkey : key a = key b
  · simp [hkey, eq_comm]
  · have hne : b ≠ a := fun h => hkey (h ▸ rfl)
    simp [hkey, hne]

theorem mem_erase {r : Roster key} {k : κ} {b : α} :
    b ∈ (r.erase k).items ↔ b ∈ r.items ∧ key b ≠ k := by
  simp [erase]

theorem mem_putAll {r : Roster key} {values : List α} {b : α} (h : b ∈ (r.putAll values).items) :
    b ∈ r.items ∨ b ∈ values := by
  induction values generalizing r with
  | nil => exact .inl h
  | cons a rest ih =>
    obtain h | h := ih (r := r.put a) h
    · obtain rfl | ⟨h, -⟩ := mem_put.1 h
      · exact .inr List.mem_cons_self
      · exact .inl h
    · exact .inr (List.mem_cons_of_mem a h)

theorem find?_putAll_of_notMem {r : Roster key} {values : List α} {k : κ}
    (h : ∀ b ∈ values, key b ≠ k) : (r.putAll values).find? k = r.find? k := by
  induction values generalizing r with
  | nil => rfl
  | cons b rest ih =>
    have hrest := ih (r := r.put b) fun c hc => h c (List.mem_cons_of_mem b hc)
    exact hrest.trans (find?_put_of_ne r (h b List.mem_cons_self))

/-- A value stays when whatever competes with it is the same value. -/
theorem find?_putAll_of_forall {r : Roster key} {values : List α} {a : α} (ha : a ∈ values)
    (h : ∀ b ∈ values, key b = key a → b = a) : (r.putAll values).find? (key a) = some a := by
  induction values generalizing r with
  | nil => cases ha
  | cons b rest ih =>
    have hrest : ∀ c ∈ rest, key c = key a → c = a :=
      fun c hc => h c (List.mem_cons_of_mem b hc)
    by_cases hmem : a ∈ rest
    · exact ih (r := r.put b) hmem hrest
    · obtain rfl : a = b := (List.mem_cons.1 ha).resolve_right hmem
      have hnone : ∀ c ∈ rest, key c ≠ key a := fun c hc hkey => hmem (hrest c hc hkey ▸ hc)
      have hkept := find?_putAll_of_notMem (r := r.put a) hnone
      exact hkept.trans (find?_put_self r a)

omit [DecidableEq κ] in
theorem eq_of_items_eq {r s : Roster key} (h : r.items = s.items) : r = s := by
  cases r
  cases s
  cases h
  rfl

theorem items_put (r : Roster key) (a : α) :
    (r.put a).items = if key a ∈ r.items.map key
      then r.items.map fun b => if key b = key a then a else b
      else r.items ++ [a] := by
  unfold put
  split <;> rfl

theorem keys_put (r : Roster key) (a : α) :
    (r.put a).items.map key = if key a ∈ r.items.map key
      then r.items.map key
      else r.items.map key ++ [key a] := by
  rw [items_put]
  split
  · rw [List.map_map]
    refine List.map_congr_left fun b _ => ?_
    by_cases h : key b = key a <;> simp [h]
  · rw [List.map_append, List.map_singleton]

theorem put_eq_self {r : Roster key} {a : α} (h : r.find? (key a) = some a) : r.put a = r := by
  have hmem := mem_of_find? h
  refine eq_of_items_eq ?_
  rw [items_put, if_pos (List.mem_map_of_mem hmem)]
  refine (List.map_congr_left fun b hb => ?_).trans (List.map_id _)
  split
  · next hkey => exact eq_of_key_eq hmem hb hkey.symm
  · rfl

/-- Values with keys of their own are put behind what is there. -/
theorem items_putAll_of_nodup {r : Roster key} {values : List α}
    (h : ((r.items ++ values).map key).Nodup) :
    (r.putAll values).items = r.items ++ values := by
  induction values generalizing r with
  | nil => exact (List.append_nil _).symm
  | cons a rest ih =>
    rw [List.append_cons] at h ⊢
    have hnew : key a ∉ r.items.map key := by
      rw [List.map_append, List.map_append, List.nodup_append] at h
      obtain ⟨hfirst, -, -⟩ := h
      rw [List.nodup_append] at hfirst
      intro hmem
      exact hfirst.2.2 _ hmem _ (List.mem_singleton_self _) rfl
    have hput : (r.put a).items = r.items ++ [a] := by
      simp only [put, dif_neg hnew]
    rw [← hput] at h ⊢
    exact ih h

/-- The value with a key stands in one place, where another one is put in its stead or none is left. -/
theorem exists_place {r : Roster key} {k : κ} {a : α} (h : r.find? k = some a) :
    ∃ before after, r.items = before ++ a :: after ∧ (r.erase k).items = before ++ after ∧
      ∀ b, key b = k → (r.put b).items = before ++ b :: after := by
  obtain ⟨before, after, hitems⟩ := List.append_of_mem (mem_of_find? h)
  obtain rfl : key a = k := key_of_find? h
  have hnodup := r.nodup_keys
  rw [hitems, List.map_append, List.map_cons, List.nodup_append, List.nodup_cons] at hnodup
  have hbefore : ∀ b ∈ before, key b ≠ key a := fun b hb =>
    hnodup.2.2 _ (List.mem_map_of_mem hb) _ List.mem_cons_self
  have hafter : ∀ b ∈ after, key b ≠ key a := fun b hb heq =>
    hnodup.2.1.1 (heq ▸ List.mem_map_of_mem hb)
  refine ⟨before, after, hitems, ?_, fun b hkey => ?_⟩
  · have hall : ∀ c ∈ before ++ after, decide (key c ≠ key a) = true := fun c hc =>
      decide_eq_true ((List.mem_append.1 hc).elim (hbefore c) (hafter c))
    have herase : (r.erase (key a)).items = r.items.filter fun c => key c ≠ key a := rfl
    rw [herase, hitems, List.filter_append, List.filter_cons_of_neg (by simp), ← List.filter_append,
      List.filter_eq_self.2 hall]
  · have hmem : key b ∈ r.items.map key := by
      rw [hkey]
      exact List.mem_map_of_mem (mem_of_find? h)
    rw [items_put, if_pos hmem, hitems, List.map_append, List.map_cons, if_pos hkey.symm]
    congr 1
    · exact (List.map_congr_left fun c hc => if_neg (hkey ▸ hbefore c hc)).trans (List.map_id _)
    · refine congrArg _ ((List.map_congr_left fun c hc => ?_).trans (List.map_id _))
      exact if_neg (hkey ▸ hafter c hc)

/-- A roster with the keys of another one, in the same order, is read off key by key. -/
theorem items_eq_map {r s : Roster key} (h : r.items.map key = s.items.map key) :
    r.items = s.items.map fun a => (r.find? (key a)).getD a := by
  have hlength : r.items.length = s.items.length := by
    simpa using congrArg List.length h
  refine List.ext_getElem (by simpa using hlength) fun n hr hs => ?_
  rw [List.length_map] at hs
  have hkey : key r.items[n] = key s.items[n] := by
    have hget := List.getElem_of_eq h (by simpa using hr)
    rwa [List.getElem_map, List.getElem_map] at hget
  have hfind : r.find? (key r.items[n]) = some r.items[n] := mem_items_iff.1 (List.getElem_mem hr)
  rw [List.getElem_map, ← hkey, hfind, Option.getD_some]

/-! ### Part of a roster -/

/-- The values with a key of a kind. -/
def restrict (r : Roster key) (p : κ → Bool) : Roster key where
  items := r.items.filter fun a => p (key a)
  nodup_keys := r.nodup_keys.sublist (List.filter_sublist.map key)

section Restrict

variable {r : Roster key} {p : κ → Bool} {a : α} {k : κ}

theorem find?_restrict : (r.restrict p).find? k = if p k = true then r.find? k else none := by
  simp only [find?, restrict, List.find?_filter]
  split
  · next hp =>
    refine List.find?_congr fun a _ => ?_
    by_cases h : key a = k <;> simp [h, hp]
  · next hp =>
    rw [List.find?_eq_none]
    intro a _
    by_cases h : key a = k <;> simp [h, hp]

theorem restrict_put_of_pos (hp : p (key a) = true) :
    (r.put a).restrict p = (r.restrict p).put a := by
  have hmem : key a ∈ (r.restrict p).items.map key ↔ key a ∈ r.items.map key := by
    rw [← contains_iff, ← contains_iff, contains, find?_restrict, if_pos hp, contains]
  refine eq_of_items_eq ?_
  change List.filter (fun b => p (key b)) (r.put a).items = _
  rw [items_put, items_put]
  simp only [hmem]
  split
  · rw [List.filter_map]
    congr 1
    refine List.filter_congr fun b _ => ?_
    by_cases h : key b = key a <;> simp [h]
  · simp [restrict, hp]

theorem restrict_put_of_neg (hp : p (key a) = false) : (r.put a).restrict p = r.restrict p := by
  refine eq_of_items_eq ?_
  change List.filter (fun b => p (key b)) (r.put a).items = _
  rw [items_put]
  split
  · rw [List.filter_map]
    have hkind : ((fun b => p (key b)) ∘ fun b => if key b = key a then a else b)
        = fun b => p (key b) := by
      funext b
      by_cases h : key b = key a <;> simp [h]
    rw [hkind]
    refine (List.map_congr_left fun b hb => ?_).trans (List.map_id _)
    have hb := (List.mem_filter.1 hb).2
    split
    · next h => simp [h, hp] at hb
    · rfl
  · simp [restrict, hp]

theorem restrict_putAll (values : List α) :
    (r.putAll values).restrict p = (r.restrict p).putAll (values.filter fun a => p (key a)) := by
  induction values generalizing r with
  | nil => rfl
  | cons a rest ih =>
    refine (ih (r := r.put a)).trans ?_
    rw [List.filter_cons]
    cases hp : p (key a) with
    | true => rw [restrict_put_of_pos hp]; rfl
    | false => rw [restrict_put_of_neg hp]; rfl

theorem restrict_erase : (r.erase k).restrict p = (r.restrict p).erase k := by
  refine eq_of_items_eq ?_
  simp only [restrict, erase, List.filter_filter, Bool.and_comm]

theorem restrict_erase_of_neg (hp : p k = false) : (r.erase k).restrict p = r.restrict p := by
  rw [restrict_erase, erase_eq_self]
  rw [contains, find?_restrict, if_neg (by simp [hp])]
  rfl

end Restrict

/-! ### Content -/

/-- The same values, in whatever order they came. -/
def Same (r s : Roster key) : Prop := ∀ k, r.find? k = s.find? k

theorem Same.refl (r : Roster key) : r.Same r := fun _ => rfl

theorem Same.of_eq {r s : Roster key} (h : r = s) : r.Same s := h ▸ .refl r

theorem Same.contains {r s : Roster key} (h : r.Same s) (k : κ) : r.contains k = s.contains k := by
  rw [Roster.contains, Roster.contains, h k]

/-- Rosters that are the same in the values of a kind and in the others are the same. -/
theorem Same.of_restrict {r s : Roster key} (p : κ → Bool)
    (hkind : (r.restrict p).Same (s.restrict p))
    (hother : (r.restrict fun k => !p k).Same (s.restrict fun k => !p k)) : r.Same s := by
  intro k
  cases hp : p k with
  | true => simpa [find?_restrict, hp] using hkind k
  | false => simpa [find?_restrict, hp] using hother k

/-- Put a value, unless its key is there. -/
def putNew (r : Roster key) (a : α) : Roster key := if r.contains (key a) then r else r.put a

/-- Put the values of a list one after the other, each unless its key is there. -/
def putNewAll (r : Roster key) (values : List α) : Roster key := values.foldl putNew r

/-- Drop the values with the keys of a list. -/
def eraseAll (r : Roster key) (keys : List κ) : Roster key := keys.foldl erase r

theorem find?_eraseAll (r : Roster key) (keys : List κ) (k : κ) :
    (r.eraseAll keys).find? k = if k ∈ keys then none else r.find? k := by
  induction keys generalizing r with
  | nil => simp [eraseAll]
  | cons l rest ih =>
    refine (ih (r.erase l)).trans ?_
    rw [find?_erase]
    by_cases h : k = l <;> simp [h]

theorem putNewAll_append (r : Roster key) (first second : List α) :
    r.putNewAll (first ++ second) = (r.putNewAll first).putNewAll second := List.foldl_append

theorem putAll_append (r : Roster key) (first second : List α) :
    r.putAll (first ++ second) = (r.putAll first).putAll second := List.foldl_append

/-- Keys stand in the order in which they were put first. -/
theorem keys_putAll_empty (values : List α) :
    ((empty : Roster key).putAll values).items.map key = (values.map key).eraseDups := by
  induction values using List.reverseRecOn with
  | nil => rfl
  | append_singleton values a ih =>
    rw [putAll_append, List.map_append, List.map_singleton, eraseDups_concat]
    refine (keys_put _ a).trans ?_
    simp only [ih, List.mem_eraseDups]

theorem find?_putAll (r : Roster key) (values : List α) (k : κ) :
    (r.putAll values).find? k = (values.reverse.find? fun a => key a = k).or (r.find? k) := by
  induction values generalizing r with
  | nil => rfl
  | cons a rest ih =>
    refine (ih (r.put a)).trans ?_
    rw [find?_put, List.reverse_cons, List.find?_append, Option.or_assoc]
    by_cases h : key a = k <;> simp [h]

theorem find?_putAll_map {β : Type} (values : List β) (f : β → α) (k : κ) :
    ((empty : Roster key).putAll (values.map f)).find? k
      = (values.reverse.find? fun b => key (f b) = k).map f := by
  rw [find?_putAll, find?_empty, Option.or_none, ← List.map_reverse, List.find?_map]
  rfl

theorem find?_putNew (r : Roster key) (a : α) (k : κ) :
    (r.putNew a).find? k = (r.find? k).or (if key a = k then some a else none) := by
  unfold putNew Roster.contains
  by_cases h : key a = k
  · subst h
    cases hfind : r.find? (key a) with
    | none => simp [find?_put_self]
    | some b => simp [hfind]
  · split <;> simp [h, find?_put_of_ne]

theorem find?_putNewAll (r : Roster key) (values : List α) (k : κ) :
    (r.putNewAll values).find? k = (r.find? k).or (values.find? fun a => key a = k) := by
  induction values generalizing r with
  | nil => rw [putNewAll, List.foldl_nil, List.find?_nil, Option.or_none]
  | cons a rest ih =>
    refine (ih (r.putNew a)).trans ?_
    rw [find?_putNew, Option.or_assoc]
    by_cases h : key a = k <;> simp [h]

theorem same_putAll_putAll (r : Roster key) (values : List α) :
    ((r.putAll values).putAll values).Same (r.putAll values) := by
  intro k
  rw [find?_putAll, find?_putAll, ← Option.or_assoc, Option.or_self]

theorem same_putNewAll_putNewAll (r : Roster key) (values : List α) :
    ((r.putNewAll values).putNewAll values).Same (r.putNewAll values) := by
  intro k
  rw [find?_putNewAll, find?_putNewAll, Option.or_assoc, Option.or_self]

/-- Putting new values and then dropping keys once more changes nothing. -/
theorem same_eraseAll_putNewAll (r : Roster key) (values : List α) (keys : List κ) :
    ((((r.putNewAll values).eraseAll keys).putNewAll values).eraseAll keys).Same
      ((r.putNewAll values).eraseAll keys) := by
  intro k
  simp only [find?_eraseAll, find?_putNewAll]
  split
  · rfl
  · rw [Option.or_assoc, Option.or_self]

section Shares

variable {δ : Type} {share : δ → List α} {senders senders' : List δ} {r r' : Roster key}

/-- Where shares agree, what is found under a key in one of them is found in none of them or is the
same. -/
private theorem agree_of_find? {xs ys : List α} {k : κ}
    (h : ∀ a ∈ xs, ∀ b ∈ ys, key a = key b → a = b) {a b : α}
    (ha : a ∈ xs.find? fun a => key a = k) (hb : b ∈ ys.find? fun a => key a = k) : a = b := by
  have hkey : key a = k := by simpa using List.find?_some ha
  have hkey' : key b = k := by simpa using List.find?_some hb
  exact h a (List.mem_of_find?_eq_some ha) b (List.mem_of_find?_eq_some hb) (hkey.trans hkey'.symm)

omit [DecidableEq κ] in
/-- Shares under different keys agree. -/
theorem agree_of_disjoint {keys : δ → List κ} (hkeys : ∀ x, ∀ a ∈ share x, key a ∈ keys x)
    (h : senders.Pairwise fun x y => ∀ k ∈ keys x, k ∉ keys y) :
    senders.Pairwise fun x y => ∀ a ∈ share x, ∀ b ∈ share y, key a = key b → a = b := by
  refine h.imp fun {x y} hapart a ha b hb hkey => ?_
  exact absurd (hkey ▸ hkeys y b hb) (hapart _ (hkeys x a ha))

theorem same_putAll_of_perm (hsame : r.Same r') (hperm : senders.Perm senders')
    (hagree : senders.Pairwise fun x y => ∀ a ∈ share x, ∀ b ∈ share y, key a = key b → a = b) :
    (r.putAll (senders.flatMap share)).Same (r'.putAll (senders'.flatMap share)) := by
  intro k
  rw [find?_putAll, find?_putAll, hsame k, List.reverse_flatMap, List.reverse_flatMap,
    List.find?_flatMap, List.find?_flatMap]
  congr 1
  refine findSome?_eq_of_perm
    (senders.reverse_perm.trans (hperm.trans senders'.reverse_perm.symm)) ?_
  rw [List.pairwise_reverse]
  refine hagree.imp fun h a ha b hb => (agree_of_find? ?_ hb ha).symm
  intro b hb a ha
  exact h b (List.mem_reverse.1 hb) a (List.mem_reverse.1 ha)

theorem same_putNewAll_of_perm (hsame : r.Same r') (hperm : senders.Perm senders')
    (hagree : senders.Pairwise fun x y => ∀ a ∈ share x, ∀ b ∈ share y, key a = key b → a = b) :
    (r.putNewAll (senders.flatMap share)).Same (r'.putNewAll (senders'.flatMap share)) := by
  intro k
  rw [find?_putNewAll, find?_putNewAll, hsame k, List.find?_flatMap, List.find?_flatMap]
  congr 1
  exact findSome?_eq_of_perm hperm (hagree.imp fun h a ha b hb => agree_of_find? h ha hb)

end Shares

end Roster

end Multidomain
