import Mathlib.Data.List.Forall2
import Multidomain.Child.Address
import Multidomain.Proofs.Address.Internet
import Multidomain.Proofs.Text.Numeral

/-!
# Hosts in the names of virtual devices

A name has the octets of a version 4 address in blocks of one length, and any other host character by
character, in lower case, with hyphens for what is neither a letter nor a digit. So a name is made of
letters, digits and hyphens only (`mem_hostPart`), and it settles the host up to what it does not tell
apart: two hosts come out the same exactly when they are alike (`hostPart_eq_iff`).
-/

namespace Multidomain.ChildAddress

/-! ### Letters and digits -/

theorem isAsciiAlphanumeric_iff (c : Char) : isAsciiAlphanumeric c = true ↔
    48 ≤ c.toNat ∧ c.toNat ≤ 57 ∨ 65 ≤ c.toNat ∧ c.toNat ≤ 90 ∨ 97 ≤ c.toNat ∧ c.toNat ≤ 122 := by
  have hdigit : c.isDigit = true ↔ 48 ≤ c.toNat ∧ c.toNat ≤ 57 := by
    rw [Char.isDigit, Bool.and_eq_true, decide_eq_true_eq, decide_eq_true_eq]
    rfl
  have hupper : c.isUpper = true ↔ 65 ≤ c.toNat ∧ c.toNat ≤ 90 := decide_eq_true_iff
  have hlower : c.isLower = true ↔ 97 ≤ c.toNat ∧ c.toNat ≤ 122 :=
    (Bool.and_eq_true_iff).trans (and_congr decide_eq_true_iff decide_eq_true_iff)
  rw [isAsciiAlphanumeric, Bool.or_eq_true, hdigit,
    show c.isAlpha = true ↔ _ from Bool.or_eq_true_iff, hupper, hlower]
  omega

theorem isAsciiAlphanumeric_toLower (c : Char) :
    isAsciiAlphanumeric c.toLower = isAsciiAlphanumeric c := by
  rw [Bool.eq_iff_iff, isAsciiAlphanumeric_iff, isAsciiAlphanumeric_iff]
  obtain ⟨hge, hle, hsum⟩ | ⟨-, hsame⟩ := Text.toLower_cases c
  · omega
  · rw [hsame]

/-! ### Hosts in names -/

/-- A character of a host as a name has it. -/
def plain (c : Char) : Char := if isAsciiAlphanumeric c then c.toLower else '-'

/-- Characters that names do not tell apart: the same letter in either case, the same digit, or two that
are neither letters nor digits. -/
def CharsAlike (c d : Char) : Prop :=
  if isAsciiAlphanumeric c then c.toLower = d.toLower else isAsciiAlphanumeric d = false

/-- Hosts that names do not tell apart. -/
inductive HostsAlike (h k : String) : Prop where
  | addresses {a : Ip4} (hh : Ip4.parse? h = some a) (hk : Ip4.parse? k = some a)
  | names (hh : Ip4.parse? h = none) (hk : Ip4.parse? k = none)
      (halike : List.Forall₂ CharsAlike h.toList k.toList)
  /-- The second host reads as what the first, a version 4 address, is turned into. -/
  | addressAndName {a : Ip4} (hh : Ip4.parse? h = some a) (hk : Ip4.parse? k = none)
      (hname : k.toLower = hostPart h)
  | nameAndAddress {a : Ip4} (hh : Ip4.parse? h = none) (hk : Ip4.parse? k = some a)
      (hname : h.toLower = hostPart k)

theorem isAsciiAlphanumeric_plain {c : Char} :
    isAsciiAlphanumeric (plain c) = isAsciiAlphanumeric c := by
  unfold plain
  split
  · exact isAsciiAlphanumeric_toLower c
  · next hc => rw [Bool.eq_false_iff.2 hc]; rfl

theorem plain_eq_plain_iff {c d : Char} : plain c = plain d ↔ CharsAlike c d := by
  have hkind : plain c = plain d → isAsciiAlphanumeric c = isAsciiAlphanumeric d := by
    intro h
    rw [← isAsciiAlphanumeric_plain, h, isAsciiAlphanumeric_plain]
  unfold CharsAlike
  cases hc : isAsciiAlphanumeric c with
  | true =>
    rw [if_pos rfl]
    constructor
    · intro h
      have hd := (hkind h).symm.trans hc
      rwa [plain, plain, if_pos hc, if_pos hd] at h
    · intro h
      have hd : isAsciiAlphanumeric d = true := by
        rw [← isAsciiAlphanumeric_toLower, ← h, isAsciiAlphanumeric_toLower, hc]
      rw [plain, plain, if_pos hc, if_pos hd, h]
  | false =>
    rw [if_neg Bool.false_ne_true]
    constructor
    · exact fun h => (hkind h).symm.trans hc
    · intro hd
      rw [plain, plain, hc, hd, if_neg Bool.false_ne_true, if_neg Bool.false_ne_true]

theorem map_plain_eq_iff {cs ds : List Char} :
    cs.map plain = ds.map plain ↔ List.Forall₂ CharsAlike cs ds := by
  rw [← List.forall₂_eq_eq_eq, List.forall₂_map_left_iff, List.forall₂_map_right_iff]
  simp only [plain_eq_plain_iff]

/-- Names of letters and digits are read as they are, but for case. -/
theorem map_plain_eq_iff_of_alphanumeric {cs name : List Char}
    (h : ∀ c ∈ name, isAsciiAlphanumeric c = true) :
    cs.map plain = name ↔ cs.map Char.toLower = name := by
  constructor <;>
  · rintro rfl
    apply List.map_congr_left
    intro c hc
    have halphanumeric := h _ (List.mem_map_of_mem hc)
    simp only [isAsciiAlphanumeric_plain, isAsciiAlphanumeric_toLower] at halphanumeric
    simp [plain, halphanumeric]

/-- An octet of a version 4 address in a name. -/
def octetBlock (octet : UInt8) : List Char :=
  'f' :: (Text.padLeft 3 '0' (Text.decimal octet.toNat)).toList

theorem toList_hostPart_of_address {h : String} {a : Ip4} (hh : Ip4.parse? h = some a) :
    (hostPart h).toList = a.octets.flatMap octetBlock := by
  unfold hostPart
  rw [hh]
  show (String.join (a.octets.map fun o => "f" ++ Text.padLeft 3 '0' (Text.decimal o.toNat))).toList
    = _
  rw [String.toList_join, List.flatMap_map]
  apply List.flatMap_congr
  intro octet _
  rw [String.toList_append]
  rfl

theorem toList_padLeft (width : Nat) (c : Char) (s : String) :
    (Text.padLeft width c s).toList = List.replicate (width - s.length) c ++ s.toList :=
  String.toList_ofList

theorem readDigits_padLeft (width n : Nat) :
    Text.readDigits 10 0 (Text.padLeft width '0' (Text.decimal n)).toList = some n := by
  have hzeros : ∀ count, Text.readDigits 10 0 (List.replicate count '0') = some 0 := by
    intro count
    induction count with
    | zero => rfl
    | succ count ih => exact ih
  rw [toList_padLeft, Text.readDigits_append, hzeros, Option.bind_some, Text.toList_decimal,
    Text.readDigits_toDigits (by decide) (by decide)]

theorem length_octetBlock (octet : UInt8) : (octetBlock octet).length = 4 := by
  have hlt := octet.toNat_lt
  have hlength : (Text.decimal octet.toNat).length ≤ 3 := by
    rw [← String.length_toList, Text.toList_decimal]
    exact (Nat.length_toDigits_le_iff (by decide) (by decide)).2 (by omega)
  rw [octetBlock, List.length_cons, toList_padLeft, List.length_append, List.length_replicate,
    String.length_toList]
  omega

theorem octetBlock_inj {o o' : UInt8} (h : octetBlock o = octetBlock o') : o = o' := by
  have hread := congrArg (Text.readDigits 10 0) (List.cons.inj h).2
  rw [readDigits_padLeft, readDigits_padLeft] at hread
  exact UInt8.toNat_inj.1 (Option.some.inj hread)

theorem flatMap_octetBlock_inj {octets octets' : List UInt8} (hlength : octets.length = octets'.length)
    (h : octets.flatMap octetBlock = octets'.flatMap octetBlock) : octets = octets' := by
  induction octets generalizing octets' with
  | nil => exact (List.eq_nil_of_length_eq_zero hlength.symm).symm
  | cons o rest ih =>
    cases octets' with
    | nil => cases hlength
    | cons o' rest' =>
      rw [List.flatMap_cons, List.flatMap_cons] at h
      obtain ⟨hfirst, hrest⟩ := List.append_inj h (by rw [length_octetBlock, length_octetBlock])
      rw [octetBlock_inj hfirst, ih (Nat.succ.inj hlength) hrest]

theorem isAsciiAlphanumeric_of_mem_octetBlock {octet : UInt8} {c : Char} (h : c ∈ octetBlock octet) :
    isAsciiAlphanumeric c = true := by
  obtain rfl | h := List.mem_cons.1 h
  · decide
  · rw [toList_padLeft, List.mem_append] at h
    obtain h | h := h
    · rw [(List.mem_replicate.1 h).2]
      decide
    · rw [isAsciiAlphanumeric, Text.isDigit_of_mem_decimal h, Bool.or_true]

theorem toList_hostPart_of_name {h : String} (hh : Ip4.parse? h = none) :
    (hostPart h).toList = h.toList.map plain := by
  unfold hostPart
  rw [hh]
  exact String.toList_ofList

theorem toList_of_address {h : String} {a : Ip4} (hh : Ip4.parse? h = some a) :
    h.toList = a.toChars := Ip4.eq_toChars_of_ofChars? hh

theorem eq_of_address {h k : String} {a : Ip4} (hh : Ip4.parse? h = some a)
    (hk : Ip4.parse? k = some a) : h = k := by
  rw [← String.toList_inj, toList_of_address hh, toList_of_address hk]

theorem isAsciiAlphanumeric_of_mem_hostPart {h : String} {a : Ip4} (hh : Ip4.parse? h = some a)
    {c : Char} (hc : c ∈ (hostPart h).toList) : isAsciiAlphanumeric c = true := by
  rw [toList_hostPart_of_address hh] at hc
  obtain ⟨octet, -, hmem⟩ := List.mem_flatMap.1 hc
  exact isAsciiAlphanumeric_of_mem_octetBlock hmem

/-- Names are made of letters, digits and hyphens. -/
theorem mem_hostPart {h : String} {c : Char} (hc : c ∈ (hostPart h).toList) :
    isAsciiAlphanumeric c = true ∨ c = '-' := by
  cases hh : Ip4.parse? h with
  | some a => exact .inl (isAsciiAlphanumeric_of_mem_hostPart hh hc)
  | none =>
    rw [toList_hostPart_of_name hh] at hc
    obtain ⟨d, -, rfl⟩ := List.mem_map.1 hc
    rw [isAsciiAlphanumeric_plain, plain]
    cases isAsciiAlphanumeric d with
    | true => exact .inl rfl
    | false => exact .inr rfl

theorem hostPart_eq_iff_of_address {h k : String} {a : Ip4} (hh : Ip4.parse? h = some a)
    (hk : Ip4.parse? k = none) : hostPart h = hostPart k ↔ k.toLower = hostPart h := by
  have hname : ∀ c ∈ (hostPart h).toList, isAsciiAlphanumeric c = true :=
    fun _ => isAsciiAlphanumeric_of_mem_hostPart hh
  rw [eq_comm, ← String.toList_inj, toList_hostPart_of_name hk,
    map_plain_eq_iff_of_alphanumeric hname, ← String.toList_map, String.toList_inj]
  rfl

theorem hostPart_eq_iff (h k : String) : hostPart h = hostPart k ↔ HostsAlike h k := by
  constructor
  · intro heq
    cases hh : Ip4.parse? h with
    | some a =>
      cases hk : Ip4.parse? k with
      | some b =>
        have hoctets := congrArg String.toList heq
        rw [toList_hostPart_of_address hh, toList_hostPart_of_address hk] at hoctets
        have hlength : a.octets.length = b.octets.length := a.length_octets.trans b.length_octets.symm
        have hsame : a = b := by
          cases a
          cases b
          cases flatMap_octetBlock_inj hlength hoctets
          rfl
        exact .addresses hh (hsame ▸ hk)
      | none => exact .addressAndName hh hk ((hostPart_eq_iff_of_address hh hk).1 heq)
    | none =>
      cases hk : Ip4.parse? k with
      | some b => exact .nameAndAddress hh hk ((hostPart_eq_iff_of_address hk hh).1 heq.symm)
      | none =>
        have hchars := congrArg String.toList heq
        rw [toList_hostPart_of_name hh, toList_hostPart_of_name hk] at hchars
        exact .names hh hk (map_plain_eq_iff.1 hchars)
  · intro halike
    cases halike with
    | addresses hh hk => rw [eq_of_address hh hk]
    | names hh hk halike =>
      rw [← String.toList_inj, toList_hostPart_of_name hh, toList_hostPart_of_name hk]
      exact map_plain_eq_iff.2 halike
    | addressAndName hh hk hname => exact (hostPart_eq_iff_of_address hh hk).2 hname
    | nameAndAddress hh hk hname => exact ((hostPart_eq_iff_of_address hk hh).2 hname).symm

/-- Version 4 addresses are in neither case. -/
theorem eq_of_toLower_eq_address {h k : String} {a : Ip4} (hh : Ip4.parse? h = some a)
    (hcase : h.toLower = k.toLower) : h = k := by
  have hlow : ∀ c ∈ h.toList, c.toNat < 65 := by
    intro c hc
    rw [toList_of_address hh] at hc
    obtain rfl | hdigit := Ip4.mem_toChars hc
    · decide
    · have hbounds := Text.digit_bounds hdigit
      omega
  have hlists := (Text.map_toLower_of_lt hlow).symm.trans (Text.map_toLower_eq hcase)
  rw [← String.toList_inj, hlists]
  refine (List.map_congr_left fun d hd => ?_).trans (List.map_id _)
  apply Text.eq_of_toLower_lt
  apply hlow
  rw [hlists]
  exact List.mem_map_of_mem hd

theorem hostPart_congr {h k : String} (hcase : h.toLower = k.toLower) : hostPart h = hostPart k := by
  cases hh : Ip4.parse? h with
  | some a => rw [eq_of_toLower_eq_address hh hcase]
  | none =>
    cases hk : Ip4.parse? k with
    | some b => rw [eq_of_toLower_eq_address hk hcase.symm]
    | none =>
      rw [← String.toList_inj, toList_hostPart_of_name hh, toList_hostPart_of_name hk]
      have hplain : plain = plain ∘ Char.toLower := by
        funext c
        simp only [plain, Function.comp_apply, isAsciiAlphanumeric_toLower, Text.toLower_toLower]
      rw [hplain, ← List.map_map, ← List.map_map, Text.map_toLower_eq hcase]

end Multidomain.ChildAddress
