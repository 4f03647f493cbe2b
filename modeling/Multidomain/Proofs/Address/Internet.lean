import Multidomain.Address.Ip
import Multidomain.Proofs.Text.Numeral

/-!
# Internet addresses that were written

The reader of internet addresses accepts what the writer makes, and gives back what was written. The two
forms are told apart by their colons: a version 4 address has none, and a version 6 address always has
some. For version 4 the written form is the only one (`Ip4.eq_toChars_of_ofChars?`). A version 6 address
has several, and what is left out as `::` is put back as long as it is no more than a run of zeros; that
it is the longest one does not matter to the reader.
-/

namespace Multidomain

namespace Ip4

/-- The octet as it is written. -/
def octetText (octet : UInt8) : List Char := Nat.toDigits 10 octet.toNat

theorem octet?_octetText (octet : UInt8) : octet? (octetText octet) = some octet := by
  have hlt := octet.toNat_lt
  have hlength : (octetText octet).length ≤ 3 :=
    (Nat.length_toDigits_le_iff (by decide) (by decide)).2 (by omega)
  have hread : Text.readDigits 10 0 (octetText octet) = some octet.toNat :=
    Text.readDigits_toDigits (by decide) (by decide) _
  have hempty : (octetText octet).isEmpty = false := by
    rw [List.isEmpty_eq_false_iff]
    exact Nat.toDigits_ne_nil
  have hzero : ¬ ((octetText octet).head? = some '0' ∧ (octetText octet).length ≠ 1) := by
    rintro ⟨hhead, hlong⟩
    have hvalue : octet.toNat = 0 := Text.eq_zero_of_head?_toDigits (by decide) hhead
    rw [octetText, hvalue] at hlong
    exact hlong rfl
  have hle : octet.toNat ≤ 255 := by omega
  unfold octet?
  rw [if_neg (by simp [hempty, hlength, hzero]), hread]
  simp [hle]

theorem eq_octetText_of_octet? {cs : List Char} {octet : UInt8} (h : octet? cs = some octet) :
    cs = octetText octet := by
  unfold octet? at h
  split at h
  · cases h
  · next hform =>
    rw [not_or, not_or, not_and_not_right] at hform
    obtain ⟨hempty, -, hzero⟩ := hform
    obtain ⟨n, hn, rfl⟩ := Option.map_eq_some_iff.1 h
    obtain ⟨hread, hle⟩ := Option.filter_eq_some_iff.1 hn
    have hle : n ≤ 255 := of_decide_eq_true hle
    have hvalue : (UInt8.ofNat n).toNat = n := UInt8.toNat_ofNat_of_lt' (Nat.lt_succ_of_le hle)
    rw [octetText, hvalue]
    refine Text.eq_toDigits_of_readDigits hread ?_ hzero
    simpa using hempty

theorem ofChars?_toChars (a : Ip4) : ofChars? a.toChars = some a := by
  have hdot : ∀ part ∈ a.octets.map octetText, '.' ∉ part := by
    intro part hpart
    obtain ⟨octet, -, rfl⟩ := List.mem_map.1 hpart
    exact (Text.separator_notMem_toDigits (by decide) (by decide) _).1
  have hsome : a.octets.map octetText ≠ [] := by
    intro hnil
    have hlength := a.length_octets
    simp [List.map_eq_nil_iff.1 hnil] at hlength
  have hoctets : (a.octets.map octetText).mapM octet? = some a.octets :=
    Text.mapM_map_eq_some octet?_octetText a.octets
  show ((Text.splitAt '.' (['.'].intercalate (a.octets.map octetText))).mapM octet?).bind ofOctets?
    = some a
  rw [Text.splitAt_intercalate hsome hdot, hoctets, Option.bind_some, ofOctets?,
    dif_pos a.length_octets]

/-- There is one way to write a version 4 address. -/
theorem eq_toChars_of_ofChars? {cs : List Char} {a : Ip4} (h : ofChars? cs = some a) :
    cs = a.toChars := by
  obtain ⟨octets, hoctets, ha⟩ := Option.bind_eq_some_iff.1 h
  have hparts : Text.splitAt '.' cs = octets.map octetText :=
    Text.eq_map_of_mapM (fun _ _ => eq_octetText_of_octet?) hoctets
  have hsame : a.octets = octets := by
    unfold ofOctets? at ha
    split at ha
    · exact congrArg Ip4.octets (Option.some.inj ha).symm
    · cases ha
  show cs = ['.'].intercalate (a.octets.map octetText)
  rw [hsame, ← hparts, Text.intercalate_splitAt]

theorem dot_mem_toChars (a : Ip4) : '.' ∈ a.toChars := by
  obtain ⟨octets, hlength⟩ := a
  match octets, hlength with
  | first :: second :: rest, _ => exact Text.sep_mem_intercalate '.' _ _ _

theorem mem_toChars {a : Ip4} {c : Char} (h : c ∈ a.toChars) : c = '.' ∨ c.isDigit = true := by
  obtain heq | ⟨part, hpart, hc⟩ := Text.mem_intercalate h
  · exact .inl heq
  · obtain ⟨octet, -, rfl⟩ := List.mem_map.1 hpart
    exact .inr (Nat.isDigit_of_mem_toDigits (by decide) (by decide) hc)

theorem colon_notMem_toChars (a : Ip4) : ':' ∉ a.toChars := by
  intro h
  obtain heq | hdigit := mem_toChars h
  · exact absurd heq (by decide)
  · exact absurd hdigit (by decide)

end Ip4

namespace Ip6

/-- The group as it is written. -/
def groupText (group : UInt16) : List Char := Nat.toDigits 16 group.toNat

theorem separator_notMem_groupText (group : UInt16) :
    '.' ∉ groupText group ∧ ':' ∉ groupText group :=
  Text.separator_notMem_toDigits (by decide) (by decide) _

theorem group?_groupText (group : UInt16) : group? (groupText group) = some group := by
  have hlt := group.toNat_lt
  have hlength : (groupText group).length ≤ 4 :=
    (Nat.length_toDigits_le_iff (by decide) (by decide)).2 (by omega)
  have hread : Text.readDigits 16 0 (groupText group) = some group.toNat :=
    Text.readDigits_toDigits (by decide) (by decide) _
  have hempty : (groupText group).isEmpty = false := by
    rw [List.isEmpty_eq_false_iff]
    exact Nat.toDigits_ne_nil
  unfold group?
  rw [if_neg (by simp [hempty, hlength]), hread, Option.map_some, UInt16.ofNat_toNat]

theorem groups?_map_groupText (groups : List UInt16) :
    groups? (groups.map groupText) = some groups := by
  induction groups with
  | nil => rfl
  | cons g rest ih =>
    cases rest with
    | nil => simp only [List.map_cons, List.map_nil, groups?, group?_groupText]
    | cons h more =>
      show ((group? (groupText g)).bind fun g => (groups? ((h :: more).map groupText)).map (g :: ·))
        = _
      rw [group?_groupText, ih]
      rfl

theorem renderGroups_eq (groups : List UInt16) :
    renderGroups groups = [':'].intercalate (groups.map groupText) := rfl

theorem renderGroups_cons_cons (g h : UInt16) (rest : List UInt16) :
    renderGroups (g :: h :: rest) = groupText g ++ ':' :: renderGroups (h :: rest) := by
  simp [renderGroups_eq, List.intercalate_cons_cons]

/-- Written groups start with a digit. -/
theorem exists_cons_renderGroups (g : UInt16) (rest : List UInt16) :
    ∃ c cs, renderGroups (g :: rest) = c :: cs ∧ c ≠ ':' := by
  obtain ⟨c, cs, hcons⟩ := List.exists_cons_of_ne_nil
    (Nat.toDigits_ne_nil : Nat.toDigits 16 g.toNat ≠ [])
  have hne : c ≠ ':' := by
    rintro rfl
    exact (separator_notMem_groupText g).2 (by rw [groupText, hcons]; exact List.mem_cons_self)
  cases rest with
  | nil => exact ⟨c, cs, by simpa [renderGroups] using hcons, hne⟩
  | cons h more =>
    exact ⟨c, cs ++ ':' :: renderGroups (h :: more),
      by rw [renderGroups_cons_cons, groupText, hcons]; rfl, hne⟩

theorem dot_notMem_renderGroups (groups : List UInt16) : '.' ∉ renderGroups groups := by
  intro h
  obtain heq | ⟨part, hpart, hc⟩ := Text.mem_intercalate h
  · exact absurd heq (by decide)
  · obtain ⟨g, -, rfl⟩ := List.mem_map.1 hpart
    exact (separator_notMem_groupText g).1 hc

theorem side?_renderGroups (groups : List UInt16) : side? (renderGroups groups) = some groups := by
  cases groups with
  | nil => rfl
  | cons g rest =>
    obtain ⟨c, cs, hcons, -⟩ := exists_cons_renderGroups g rest
    have hcolon : ∀ part ∈ (g :: rest).map groupText, ':' ∉ part := by
      intro part hpart
      obtain ⟨k, -, rfl⟩ := List.mem_map.1 hpart
      exact (separator_notMem_groupText k).2
    have hempty : (renderGroups (g :: rest)).isEmpty = false := by rw [hcons]; rfl
    rw [side?, hempty, if_neg Bool.false_ne_true, renderGroups_eq,
      Text.splitAt_intercalate (by simp) hcolon, groups?_map_groupText]

/-! ### What is left out -/

theorem splitGap_append {part : List Char} (h : ':' ∉ part) (rest : List Char) :
    splitGap (part ++ rest) = (splitGap rest).map fun sides => (part ++ sides.1, sides.2) := by
  induction part with
  | nil => exact Option.map_id'.symm
  | cons c others ih =>
    rw [List.mem_cons, not_or] at h
    rw [List.cons_append, splitGap, ih h.2, Option.map_map]
    · rfl
    · rintro more heq -
      exact h.1 heq.symm

/-- One colon alone is no gap. -/
theorem splitGap_colon {c : Char} (h : c ≠ ':') (rest : List Char) :
    splitGap (':' :: c :: rest) = (splitGap (c :: rest)).map fun sides => (':' :: sides.1, sides.2) := by
  rw [splitGap]
  rintro more - heq
  exact h (List.cons.inj heq).1

/-- Written groups have no gap in them, and none where they meet what comes after. -/
theorem splitGap_renderGroups_append (groups : List UInt16) (rest : List Char) :
    splitGap (renderGroups groups ++ rest)
      = (splitGap rest).map fun sides => (renderGroups groups ++ sides.1, sides.2) := by
  induction groups with
  | nil => exact Option.map_id'.symm
  | cons g more ih =>
    cases more with
    | nil =>
      have hone : renderGroups [g] = groupText g := by simp [renderGroups, groupText]
      rw [hone, splitGap_append (separator_notMem_groupText g).2]
    | cons h others =>
      obtain ⟨c, cs, hcons, hne⟩ := exists_cons_renderGroups h others
      rw [renderGroups_cons_cons, List.append_assoc,
        splitGap_append (separator_notMem_groupText g).2, List.cons_append, hcons, List.cons_append,
        splitGap_colon hne, ← List.cons_append, ← hcons, ih, Option.map_map, Option.map_map]
      congr 1
      funext sides
      simp

theorem splitGap_renderGroups (groups : List UInt16) : splitGap (renderGroups groups) = none := by
  have h := splitGap_renderGroups_append groups []
  rwa [List.append_nil] at h

/-- The longest run of zero groups is one, whatever stands before and after it. -/
theorem longestZeroRun_spec {i : Nat} {groups : List UInt16} (h : (longestZeroRun i groups).2 ≠ 0) :
    ∃ before after, (longestZeroRun i groups).1 = i + before.length
      ∧ groups = before ++ List.replicate (longestZeroRun i groups).2 0 ++ after := by
  induction groups generalizing i with
  | nil => exact absurd rfl h
  | cons g rest ih =>
    rw [longestZeroRun] at h ⊢
    split
    · refine ⟨[], (g :: rest).dropWhile (· == 0), rfl, ?_⟩
      have hzeros : (g :: rest).takeWhile (· == 0) = List.replicate (zeroRun (g :: rest)) 0 := by
        rw [List.eq_replicate_iff]
        exact ⟨rfl, fun k hk => beq_iff_eq.1 (List.all_eq_true.1 List.all_takeWhile k hk)⟩
      rw [List.nil_append, ← hzeros, List.takeWhile_append_dropWhile]
    · next hlater =>
      rw [if_neg hlater] at h
      obtain ⟨before, after, hstart, hrest⟩ := ih h
      refine ⟨g :: before, after, ?_, ?_⟩
      · rw [hstart, List.length_cons]
        omega
      · exact congrArg (g :: ·) hrest

theorem ofGroups?_groups (a : Ip6) : ofGroups? a.groups = some a := dif_pos a.length_groups

/-- A run of zero groups that was left out is put back. -/
theorem ofChars?_gap (a : Ip6) {before after : List UInt16} {count : Nat} (hcount : 1 < count)
    (ha : a.groups = before ++ List.replicate count 0 ++ after) :
    ofChars? (renderGroups before ++ [':', ':'] ++ renderGroups after) = some a := by
  have hlength := congrArg List.length ha
  rw [a.length_groups, List.length_append, List.length_append, List.length_replicate] at hlength
  have hgap : splitGap (renderGroups before ++ [':', ':'] ++ renderGroups after)
      = some (renderGroups before, renderGroups after) := by
    rw [List.append_assoc, splitGap_renderGroups_append]
    show some (renderGroups before ++ [], renderGroups after) = _
    rw [List.append_nil]
  have hdot : (renderGroups before).contains '.' = false := by
    simpa using dot_notMem_renderGroups before
  have hmissing : 8 - before.length - after.length = count := by omega
  have hfew : before.length + after.length ≤ 7 := by omega
  unfold ofChars?
  rw [hgap]
  simp only [hdot, Bool.false_eq_true, if_false, side?_renderGroups, Option.bind_eq_bind,
    Option.bind_some, hfew, if_true, hmissing, ← ha, ofGroups?_groups]

/-- A version 4 address is no group. -/
theorem group?_toChars (a : Ip4) : group? a.toChars = none := by
  have hread : Text.readDigits 16 0 a.toChars = none :=
    Text.readDigits_eq_none a.dot_mem_toChars (by decide) 0
  unfold group?
  split
  · rfl
  · rw [hread, Option.map_none]

/-- The octets of two groups make the two groups again. -/
theorem octets_join (g : UInt16) : (g >>> 8).toUInt8.toUInt16 * 256 + g.toUInt8.toUInt16 = g := by
  have hlt := g.toNat_lt
  apply UInt16.toNat_inj.1
  simp only [UInt16.toNat_add, UInt16.toNat_mul, UInt8.toNat_toUInt16, UInt16.toNat_toUInt8,
    UInt16.toNat_shiftRight, Nat.shiftRight_eq_div_pow]
  rw [show UInt16.toNat 8 % 16 = 8 from rfl, show UInt16.toNat 256 = 256 from rfl]
  omega

theorem ofChars?_mapped {a : Ip6} {four : Ip4} (h : a.mapped? = some four) :
    ofChars? ([':', ':', 'f', 'f', 'f', 'f', ':'] ++ four.toChars) = some a := by
  unfold mapped? at h
  split at h
  · next high low hgroups =>
    have hjoined : four.groups = [high, low] := by
      obtain rfl : _ = four := Option.some.inj h
      show [(high >>> 8).toUInt8.toUInt16 * 256 + high.toUInt8.toUInt16,
        (low >>> 8).toUInt8.toUInt16 * 256 + low.toUInt8.toUInt16] = [high, low]
      rw [octets_join, octets_join]
    have hside : side? (['f', 'f', 'f', 'f', ':'] ++ four.toChars) = some [0xffff, high, low] := by
      have hsplit : Text.splitAt ':' (['f', 'f', 'f', 'f'] ++ ':' :: four.toChars)
          = [['f', 'f', 'f', 'f'], four.toChars] := by
        rw [Text.splitAt_append (by decide), Text.splitAt_of_not_mem four.colon_notMem_toChars]
      have hlast : groups? [four.toChars] = some [high, low] := by
        rw [groups?, group?_toChars, ← hjoined]
        show (Ip4.ofChars? four.toChars).map Ip4.groups = _
        rw [Ip4.ofChars?_toChars, Option.map_some]
      show groups? (Text.splitAt ':' (['f', 'f', 'f', 'f'] ++ ':' :: four.toChars)) = _
      rw [hsplit]
      show ((group? ['f', 'f', 'f', 'f']).bind fun g => (groups? [four.toChars]).map (g :: ·)) = _
      rw [hlast]
      rfl
    show (do
      let front ← if ([] : List Char).contains '.' then none else side? []
      let back ← side? (['f', 'f', 'f', 'f', ':'] ++ four.toChars)
      if front.length + back.length ≤ 7 then
        ofGroups? (front ++ List.replicate (8 - front.length - back.length) 0 ++ back)
      else none) = some a
    rw [hside]
    show ofGroups? [0, 0, 0, 0, 0, 0xffff, high, low] = some a
    rw [← hgroups, ofGroups?_groups]
  · cases h

theorem ofChars?_toChars (a : Ip6) : ofChars? a.toChars = some a := by
  unfold toChars
  cases hmapped : a.mapped? with
  | some four => exact ofChars?_mapped hmapped
  | none =>
    show ofChars? (if 1 < (longestZeroRun 0 a.groups).2 then _ else _) = _
    split
    · next hlong =>
      obtain ⟨before, after, hstart, hgroups⟩ := longestZeroRun_spec (Nat.ne_zero_of_lt hlong)
      generalize longestZeroRun 0 a.groups = run at *
      have htake : a.groups.take run.1 = before := by
        rw [hgroups, List.append_assoc, List.take_left' (by omega)]
      have hdrop : a.groups.drop (run.1 + run.2) = after := by
        rw [hgroups, List.drop_left' (by
          rw [List.length_append, List.length_replicate]
          omega)]
      rw [htake, hdrop]
      exact ofChars?_gap a hlong hgroups
    · rw [ofChars?, splitGap_renderGroups]
      show (side? (renderGroups a.groups)).bind ofGroups? = some a
      rw [side?_renderGroups, Option.bind_some, ofGroups?_groups]

theorem length_le_of_groups?_singleton {last : List Char} {groups : List UInt16}
    (h : groups? [last] = some groups) : groups.length ≤ 2 := by
  rw [groups?] at h
  split at h
  · obtain rfl := Option.some.inj h
    exact Nat.le_succ 1
  · obtain ⟨four, -, rfl⟩ := Option.map_eq_some_iff.1 h
    unfold Ip4.groups
    split
    · exact Nat.le_refl 2
    · exact Nat.zero_le 2

/-- Eight groups need a colon, also where the last two are a version 4 address. -/
theorem colon_mem_of_ofChars? {cs : List Char} {a : Ip6} (h : ofChars? cs = some a) : ':' ∈ cs := by
  by_contra hcolon
  have hgap : splitGap cs = none := by
    have hnone := splitGap_append hcolon []
    rwa [List.append_nil] at hnone
  rw [ofChars?, hgap] at h
  obtain ⟨groups, hside, ha⟩ := Option.bind_eq_some_iff.1 h
  have height : groups.length = 8 := by
    by_contra hne
    rw [ofGroups?, dif_neg hne] at ha
    cases ha
  rw [side?, Text.splitAt_of_not_mem hcolon] at hside
  split at hside
  · obtain rfl := Option.some.inj hside
    cases height
  · have hfew := length_le_of_groups?_singleton hside
    omega

theorem colon_mem_toChars (a : Ip6) : ':' ∈ a.toChars := colon_mem_of_ofChars? a.ofChars?_toChars

end Ip6

namespace Ip

/-- An internet address is read back from its written form. -/
theorem parse?_toString (a : Ip) : parse? (toString a) = some a := by
  cases a with
  | v4 a =>
    have hread : Ip4.parse? (toString (v4 a)) = some a := by
      rw [Ip4.parse?, show (toString (v4 a)).toList = a.toChars from String.toList_ofList,
        Ip4.ofChars?_toChars]
    rw [parse?, hread]
  | v6 a =>
    have htext : (toString (v6 a)).toList = a.toChars := String.toList_ofList
    have hother : Ip4.parse? (toString (v6 a)) = none := by
      rw [Ip4.parse?, htext]
      cases hfour : Ip4.ofChars? a.toChars with
      | none => rfl
      | some four =>
        have hcolon := a.colon_mem_toChars
        rw [Ip4.eq_toChars_of_ofChars? hfour] at hcolon
        exact absurd hcolon four.colon_notMem_toChars
    rw [parse?, hother]
    show (Ip6.ofChars? (toString (v6 a)).toList).map v6 = _
    rw [htext, Ip6.ofChars?_toChars, Option.map_some]

end Ip

end Multidomain
