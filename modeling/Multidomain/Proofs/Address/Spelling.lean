import Mathlib.Data.List.Basic
import Multidomain.Proofs.Address.Written

/-!
# How Ethernet addresses may be spelled

A text is read as an Ethernet address exactly when, blanks at its ends aside, it is six groups joined by
colons, where a group is two hexadecimal digits, or a plus sign and one (`exists_parse_iff`). The
address is written as that text in upper case, with a zero for every plus sign (`toString_of_parse`).
`parse_accepts_iff` puts these together and says where the plus sign makes the difference.
-/

namespace Multidomain

namespace Text

/-- A hexadecimal digit, its letters in either case. -/
def IsHexDigit (c : Char) : Prop :=
  ('0' ≤ c ∧ c ≤ '9') ∨ ('a' ≤ c ∧ c ≤ 'f') ∨ ('A' ≤ c ∧ c ≤ 'F')

instance (c : Char) : Decidable (IsHexDigit c) :=
  inferInstanceAs (Decidable (_ ∨ _ ∨ _))

theorem toNat_lt_of_le {c d : Char} (h : c ≤ d) {bound : Nat} (hd : d.toNat < bound) :
    c.toNat < bound :=
  Nat.lt_of_le_of_lt h hd

theorem toNat_lt_of_isHexDigit {c : Char} (h : IsHexDigit c) : c.toNat < 103 := by
  obtain ⟨-, h⟩ | ⟨-, h⟩ | ⟨-, h⟩ := h
  · exact toNat_lt_of_le h (by decide)
  · exact toNat_lt_of_le h (by decide)
  · exact toNat_lt_of_le h (by decide)

theorem toNat_lt_of_digitValue? {c : Char} {d : Nat} (h : digitValue? 16 c = some d) :
    c.toNat < 103 := by
  obtain ⟨hvalue, hlt⟩ := Option.filter_eq_some_iff.1 h
  have hlt : d < 16 := of_decide_eq_true hlt
  split at hvalue
  · next hdigit => exact toNat_lt_of_le hdigit.2 (by decide)
  · split at hvalue
    · have hsum := Option.some.inj hvalue
      have hbase : 'a'.toNat = 97 := rfl
      omega
    · split at hvalue
      · next hupper => exact toNat_lt_of_le hupper.2 (by decide)
      · cases hvalue

theorem digitValue?_eq_some_iff_of_lt {c : Char} {d : Nat} (hc : c.toNat < 103) (hd : d < 16) :
    digitValue? 16 c = some d ↔ IsHexDigit c ∧ c.toUpper = hexDigit d := by
  have hall : ∀ n < 103, ∀ d < 16, digitValue? 16 (Char.ofNat n) = some d ↔
      IsHexDigit (Char.ofNat n) ∧ (Char.ofNat n).toUpper = hexDigit d := by
    decide +kernel
  have h := hall c.toNat hc d hd
  rwa [Char.ofNat_toNat] at h

/-- The value of a hexadecimal digit is the one whose digit it is in upper case. -/
theorem digitValue?_eq_some_iff {c : Char} {d : Nat} :
    digitValue? 16 c = some d ↔ IsHexDigit c ∧ d < 16 ∧ c.toUpper = hexDigit d := by
  constructor
  · intro h
    have hlt : d < 16 := of_decide_eq_true (Option.filter_eq_some_iff.1 h).2
    obtain ⟨hhex, hupper⟩ := (digitValue?_eq_some_iff_of_lt (toNat_lt_of_digitValue? h) hlt).1 h
    exact ⟨hhex, hlt, hupper⟩
  · rintro ⟨hhex, hlt, hupper⟩
    exact (digitValue?_eq_some_iff_of_lt (toNat_lt_of_isHexDigit hhex) hlt).2 ⟨hhex, hupper⟩

theorem exists_digitValue? {c : Char} (h : IsHexDigit c) : ∃ d, digitValue? 16 c = some d := by
  have hall : ∀ n < 103, IsHexDigit (Char.ofNat n) →
      ∃ d < 16, (Char.ofNat n).toUpper = hexDigit d := by
    decide +kernel
  have hupper := hall c.toNat (toNat_lt_of_isHexDigit h)
  rw [Char.ofNat_toNat] at hupper
  obtain ⟨d, hlt, hupper⟩ := hupper h
  exact ⟨d, digitValue?_eq_some_iff.2 ⟨h, hlt, hupper⟩⟩

/-- Neither a plus sign nor a colon is a digit. -/
theorem ne_of_isHexDigit {c : Char} (h : IsHexDigit c) : c ≠ '+' ∧ c ≠ ':' := by
  constructor
  · rintro rfl
    exact absurd h (by decide)
  · rintro rfl
    exact absurd h (by decide)

/-- A character that stays as it is may join the parts before or after the others are changed. -/
theorem map_intercalate {f : Char → Char} {sep : Char} (hsep : f sep = sep)
    (parts : List (List Char)) :
    ([sep].intercalate parts).map f = [sep].intercalate (parts.map (List.map f)) := by
  induction parts with
  | nil => rfl
  | cons part rest ih =>
    cases rest with
    | nil => simp
    | cons next more =>
      rw [List.map_cons, List.map_cons, List.intercalate_cons_cons, List.intercalate_cons_cons,
        List.map_append, List.map_append, List.map_singleton, hsep, ih, List.map_cons]

theorem mem_intercalate_of_mem {sep c : Char} {parts : List (List Char)} {part : List Char}
    (hpart : part ∈ parts) (hc : c ∈ part) : c ∈ [sep].intercalate parts := by
  induction parts with
  | nil => cases hpart
  | cons first rest ih =>
    cases rest with
    | nil =>
      obtain rfl := List.mem_singleton.1 hpart
      simpa using hc
    | cons next more =>
      rw [List.intercalate_cons_cons, List.append_assoc, List.mem_append, List.mem_append]
      obtain rfl | hrest := List.mem_cons.1 hpart
      · exact .inl hc
      · exact .inr (.inr (ih hrest))

end Text

namespace Mac

open Text (IsHexDigit)

/-- Two hexadecimal digits. -/
def IsPair (cs : List Char) : Prop := ∃ a b, cs = [a, b] ∧ IsHexDigit a ∧ IsHexDigit b

/-- A plus sign and a hexadecimal digit. -/
def IsSigned (cs : List Char) : Prop := ∃ b, cs = ['+', b] ∧ IsHexDigit b

/-- A group that is read as an octet. -/
def IsGroup (cs : List Char) : Prop := IsPair cs ∨ IsSigned cs

/-- Six groups of one sort, joined by colons. -/
def IsSixOf (Group : List Char → Prop) (cs : List Char) : Prop :=
  ∃ groups, groups.length = 6 ∧ (∀ group ∈ groups, Group group) ∧ cs = [':'].intercalate groups

/-- A character as it is written for what is read: letters in upper case, and a zero for a plus sign. -/
def respell (c : Char) : Char := if c = '+' then '0' else c.toUpper

theorem respell_of_digit {c : Char} {d : Nat} (h : Text.digitValue? 16 c = some d) :
    respell c = Text.hexDigit d := by
  obtain ⟨hhex, -, hupper⟩ := Text.digitValue?_eq_some_iff.1 h
  rw [respell, if_neg (Text.ne_of_isHexDigit hhex).1, hupper]

theorem hexPair_ofNat {high low : Nat} (hhigh : high < 16) (hlow : low < 16) :
    Text.hexPair (UInt8.ofNat (high * 16 + low)) = [Text.hexDigit high, Text.hexDigit low] := by
  have hvalue : (UInt8.ofNat (high * 16 + low)).toNat = high * 16 + low := by
    rw [UInt8.toNat_ofNat']
    omega
  have hdiv : (high * 16 + low) / 16 = high := by omega
  have hmod : (high * 16 + low) % 16 = low := by omega
  rw [Text.hexPair, hvalue, hdiv, hmod]

theorem octet?_pair {a b : Char} (ha : a ≠ '+') :
    octet? [a, b] = (Text.digitValue? 16 a).bind fun high =>
      (Text.digitValue? 16 b).map fun low => UInt8.ofNat (high * 16 + low) := by
  have hread : Text.readNumber 16 255 [a, b] = (Text.digitValue? 16 a).bind fun high =>
      (Text.digitValue? 16 b).map fun low => high * 16 + low := by
    unfold Text.readNumber
    split
    · next rest heq => exact absurd (List.cons.inj heq).1 ha
    · cases hhigh : Text.digitValue? 16 a with
      | none => simp [Text.readDigits, hhigh]
      | some high =>
        cases hlow : Text.digitValue? 16 b with
        | none => simp [Text.readDigits, hhigh, hlow]
        | some low =>
          have hltHigh := (Text.digitValue?_eq_some_iff.1 hhigh).2.1
          have hltLow := (Text.digitValue?_eq_some_iff.1 hlow).2.1
          have hle : high * 16 + low ≤ 255 := by omega
          simp [Text.readDigits, hhigh, hlow, hle]
  rw [octet?, if_pos (by rfl), hread, Option.map_bind]
  simp only [Function.comp_def, Option.map_map]

theorem octet?_signed (b : Char) :
    octet? ['+', b] = (Text.digitValue? 16 b).map UInt8.ofNat := by
  have hread : Text.readNumber 16 255 ['+', b] = Text.digitValue? 16 b := by
    cases hlow : Text.digitValue? 16 b with
    | none => simp [Text.readNumber, Text.readDigits, hlow]
    | some low =>
      have hlt := (Text.digitValue?_eq_some_iff.1 hlow).2.1
      have hle : low ≤ 255 := by omega
      simp [Text.readNumber, Text.readDigits, hlow, hle]
  rw [octet?, if_pos (by rfl), hread]

/-- What is read as an octet is a pair of digits, or a plus sign and a digit; and the octet is written
as this is respelled. -/
theorem cases_of_octet? {cs : List Char} {octet : UInt8} (h : octet? cs = some octet) :
    IsGroup cs ∧ cs.map respell = Text.hexPair octet := by
  have hlength : cs.length = 2 := by
    by_contra hne
    rw [octet?, if_neg hne] at h
    cases h
  obtain ⟨a, b, rfl⟩ := List.length_eq_two.1 hlength
  by_cases hsign : a = '+'
  · subst hsign
    rw [octet?_signed] at h
    obtain ⟨low, hlow, rfl⟩ := Option.map_eq_some_iff.1 h
    obtain ⟨hhex, hlt, -⟩ := Text.digitValue?_eq_some_iff.1 hlow
    refine ⟨.inr ⟨b, rfl, hhex⟩, ?_⟩
    have hzero : respell '+' = Text.hexDigit 0 := by decide
    have hpair := hexPair_ofNat (by decide : 0 < 16) hlt
    rw [Nat.zero_mul, Nat.zero_add] at hpair
    rw [hpair, List.map_cons, List.map_singleton, hzero, respell_of_digit hlow]
  · rw [octet?_pair hsign] at h
    obtain ⟨high, hhigh, h⟩ := Option.bind_eq_some_iff.1 h
    obtain ⟨low, hlow, rfl⟩ := Option.map_eq_some_iff.1 h
    obtain ⟨hhexHigh, hltHigh, -⟩ := Text.digitValue?_eq_some_iff.1 hhigh
    obtain ⟨hhexLow, hltLow, -⟩ := Text.digitValue?_eq_some_iff.1 hlow
    refine ⟨.inl ⟨a, b, rfl, hhexHigh, hhexLow⟩, ?_⟩
    rw [hexPair_ofNat hltHigh hltLow, List.map_cons, List.map_singleton, respell_of_digit hhigh,
      respell_of_digit hlow]

theorem exists_octet? {cs : List Char} (h : IsGroup cs) :
    ∃ octet, octet? cs = some octet := by
  obtain ⟨a, b, rfl, ha, hb⟩ | ⟨b, rfl, hb⟩ := h
  · obtain ⟨high, hhigh⟩ := Text.exists_digitValue? ha
    obtain ⟨low, hlow⟩ := Text.exists_digitValue? hb
    exact ⟨_, by rw [octet?_pair (Text.ne_of_isHexDigit ha).1, hhigh, hlow]; rfl⟩
  · obtain ⟨low, hlow⟩ := Text.exists_digitValue? hb
    exact ⟨_, by rw [octet?_signed, hlow]; rfl⟩

theorem colon_notMem {cs : List Char} (h : IsGroup cs) : ':' ∉ cs := by
  obtain ⟨a, b, rfl, ha, hb⟩ | ⟨b, rfl, hb⟩ := h
  · simp [(Text.ne_of_isHexDigit ha).2.symm, (Text.ne_of_isHexDigit hb).2.symm]
  · simp [(Text.ne_of_isHexDigit hb).2.symm]

theorem plus_notMem {cs : List Char} (h : IsPair cs) : '+' ∉ cs := by
  obtain ⟨a, b, rfl, ha, hb⟩ := h
  simp [(Text.ne_of_isHexDigit ha).1.symm, (Text.ne_of_isHexDigit hb).1.symm]

theorem spelling_of_ofChars? {cs : List Char} {m : Mac} (h : ofChars? cs = some m) :
    IsSixOf IsGroup cs ∧ cs.map respell = m.toChars := by
  obtain ⟨octets, hread, hoctets⟩ := Option.bind_eq_some_iff.1 h
  have hjoined := Text.intercalate_splitAt ':' cs
  have hlength := (Text.mapM_eq_some_iff.1 hread).length_eq
  have hgroups : ∀ group ∈ Text.splitAt ':' cs, IsGroup group := by
    have hall := (Text.mapM_eq_some_iff.1 hread).imp fun {_ _} => cases_of_octet?
    exact ((List.forall₂_and_left _ _).1 hall).1
  have hpairs : (Text.splitAt ':' cs).map (List.map respell) = octets.map Text.hexPair :=
    Text.map_eq_map_of_mapM (fun _ _ h => (cases_of_octet? h).2) hread
  by_cases hsix : octets.length = 6
  · obtain rfl : ⟨octets, hsix⟩ = m := by simpa [ofOctets?, hsix] using hoctets
    refine ⟨⟨_, hlength.trans hsix, hgroups, hjoined.symm⟩, ?_⟩
    have hcolon : respell ':' = ':' := by decide
    rw [← hjoined, Text.map_intercalate hcolon, hpairs]
    rfl
  · simp [ofOctets?, hsix] at hoctets

theorem exists_ofChars? {cs : List Char} (h : IsSixOf IsGroup cs) : ∃ m, ofChars? cs = some m := by
  obtain ⟨groups, hsix, hgroups, rfl⟩ := h
  have hsplit : Text.splitAt ':' ([':'].intercalate groups) = groups :=
    Text.splitAt_intercalate (by rintro rfl; cases hsix) fun group hgroup =>
      colon_notMem (hgroups group hgroup)
  let octets := groups.map fun group => (octet? group).getD 0
  have hread : groups.mapM octet? = some octets := by
    rw [Text.mapM_eq_some_iff, List.forall₂_map_right_iff, List.forall₂_same]
    intro group hgroup
    obtain ⟨octet, hoctet⟩ := exists_octet? (hgroups group hgroup)
    rw [hoctet, Option.getD_some]
  have hlength : octets.length = 6 := List.length_map _ |>.trans hsix
  exact ⟨⟨octets, hlength⟩, by rw [ofChars?, hsplit, hread, Option.bind_some, ofOctets?, dif_pos]⟩

theorem IsSixOf.mono {P Q : List Char → Prop} (hPQ : ∀ cs, P cs → Q cs) {cs : List Char}
    (h : IsSixOf P cs) : IsSixOf Q cs := by
  obtain ⟨groups, hsix, hgroups, hcs⟩ := h
  exact ⟨groups, hsix, fun group hgroup => hPQ group (hgroups group hgroup), hcs⟩

/-- Six groups are six pairs of digits exactly when no plus sign is among them. -/
theorem isSixOf_isPair_iff {cs : List Char} (h : IsSixOf IsGroup cs) :
    IsSixOf IsPair cs ↔ '+' ∉ cs := by
  constructor
  · rintro ⟨groups, -, hgroups, rfl⟩ hplus
    obtain heq | ⟨group, hgroup, hplus⟩ := Text.mem_intercalate hplus
    · cases heq
    · exact plus_notMem (hgroups group hgroup) hplus
  · intro hplus
    obtain ⟨groups, hsix, hgroups, rfl⟩ := h
    refine ⟨groups, hsix, fun group hgroup => (hgroups group hgroup).resolve_right ?_, rfl⟩
    rintro ⟨b, rfl, -⟩
    exact hplus (Text.mem_intercalate_of_mem hgroup List.mem_cons_self)

theorem parse_eq_ok_iff {s : String} {m : Mac} :
    parse s = .ok m ↔ ofChars? (Text.trimChars s.toList) = some m := by
  unfold parse
  cases ofChars? (Text.trimChars s.toList) <;> simp

theorem exists_parse_iff {s : String} :
    (∃ m, parse s = .ok m) ↔ IsSixOf IsGroup (Text.trimChars s.toList) := by
  simp only [parse_eq_ok_iff]
  exact ⟨fun ⟨_, h⟩ => (spelling_of_ofChars? h).1, exists_ofChars?⟩

/-- An address is written as the text that it was read from, blanks at its ends aside, with letters in
upper case and zeros for plus signs. -/
theorem toString_of_parse {s : String} {m : Mac} (h : parse s = .ok m) :
    toString m = (Text.trim s).map respell := by
  have hspelling := (spelling_of_ofChars? (parse_eq_ok_iff.1 h)).2
  rw [← String.toList_inj, String.toList_map, Text.trim, String.toList_ofList, hspelling]
  exact String.toList_ofList

/-- Which texts are read as an address, how it is written, and that it is read back from that. A text
of six pairs of hexadecimal digits joined by colons is read, and its address is written as that text in
upper case; and such texts are the only ones that are read but for those with a plus sign in the place
of a first digit. What is not read is given back with the fault. -/
theorem parse_accepts_iff (s : String) :
    ((∃ m, parse s = .ok m) ↔ IsSixOf IsGroup (Text.trimChars s.toList))
      ∧ (∀ m, parse s = .ok m → toString m = (Text.trim s).map respell)
      ∧ (IsSixOf IsPair (Text.trimChars s.toList) →
          ∃ m, parse s = .ok m ∧ toString m = (Text.trim s).toUpper)
      ∧ (((∃ m, parse s = .ok m) ↔ IsSixOf IsPair (Text.trimChars s.toList)) ↔
          ¬ (IsSixOf IsGroup (Text.trimChars s.toList) ∧ '+' ∈ Text.trimChars s.toList))
      ∧ (∀ fault, parse s = .error fault → fault = .mac s)
      ∧ ∀ m : Mac, parse (toString m) = .ok m := by
  refine ⟨exists_parse_iff, fun m => toString_of_parse, fun hpairs => ?_, ?_, fun fault h => ?_,
    parse_toString⟩
  · have hgroups : IsSixOf IsGroup (Text.trimChars s.toList) := hpairs.mono fun _ => Or.inl
    obtain ⟨m, hm⟩ := exists_parse_iff.2 hgroups
    have hplus := (isSixOf_isPair_iff hgroups).1 hpairs
    refine ⟨m, hm, ?_⟩
    rw [toString_of_parse hm, ← String.toList_inj, String.toList_map, String.toUpper,
      String.toList_map, Text.trim, String.toList_ofList]
    refine List.map_congr_left fun c hc => if_neg ?_
    rintro rfl
    exact hplus hc
  · rw [exists_parse_iff]
    constructor
    · rintro hiff ⟨hgroups, hplus⟩
      exact (isSixOf_isPair_iff hgroups).1 (hiff.1 hgroups) hplus
    · intro hnot
      refine ⟨fun hgroups => ?_, fun hpairs => hpairs.mono fun _ => Or.inl⟩
      exact (isSixOf_isPair_iff hgroups).2 fun hplus => hnot ⟨hgroups, hplus⟩
  · unfold parse at h
    split at h
    · cases h
    · exact (Except.error.inj h).symm

/-- A plus sign is read in the place of a first digit. -/
theorem signed_octet_accepted :
    let text := "+1:02:03:04:05:06"
    parse text = .ok ⟨[1, 2, 3, 4, 5, 6], rfl⟩ ∧ ¬ IsSixOf IsPair (Text.trimChars text.toList) := by
  intro text
  have hparse : parse text = .ok ⟨[1, 2, 3, 4, 5, 6], rfl⟩ := by decide +kernel
  refine ⟨hparse, fun hpairs => ?_⟩
  have hplus : '+' ∈ Text.trimChars text.toList := by decide +kernel
  exact (isSixOf_isPair_iff (exists_parse_iff.1 ⟨_, hparse⟩)).1 hpairs hplus

end Mac

end Multidomain
