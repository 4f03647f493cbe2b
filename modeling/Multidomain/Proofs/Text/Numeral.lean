import Mathlib.Data.List.Forall2
import Mathlib.Data.List.Induction
import Multidomain.Text.Numeral

/-!
# Numerals that were written

A number in decimal digits is read back as itself, and the blanks that a reader drops from the ends of
a text are no part of it. The same goes for an octet as a pair of hexadecimal digits, and for parts
that were joined by a separator that occurs in none of them.

In lower case the twenty-six capital letters become small ones, and every other character stays. So what
has a smaller code than the letters, digits and separators above all, is in neither case.
-/

namespace Multidomain.Text

/-! ### Decimal digits -/

theorem digit_bounds {c : Char} (h : c.isDigit = true) : 48 ≤ c.toNat ∧ c.toNat ≤ 57 := by
  simp only [Char.isDigit, Bool.and_eq_true, decide_eq_true_eq] at h
  exact h

theorem digitValue?_of_isDigit {c : Char} (h : c.isDigit = true) :
    digitValue? 10 c = some (c.toNat - '0'.toNat) := by
  have hrange : '0' ≤ c ∧ c ≤ '9' := digit_bounds h
  have hbounds := digit_bounds h
  have hlt : c.toNat - 48 < 10 := by omega
  simp [digitValue?, hrange, hlt]

theorem readDigits_of_isDigit {cs : List Char} (h : ∀ c ∈ cs, c.isDigit = true) (acc : Nat) :
    readDigits 10 acc cs = some (Nat.ofDigitChars 10 cs acc) := by
  induction cs generalizing acc with
  | nil => rfl
  | cons c rest ih =>
    rw [List.forall_mem_cons] at h
    rw [readDigits, digitValue?_of_isDigit h.1, Option.bind_some, ih h.2, Nat.ofDigitChars_cons,
      Nat.mul_comm]

theorem toList_decimal (n : Nat) : (decimal n).toList = Nat.toDigits 10 n := Nat.toList_repr

theorem isDigit_of_mem_decimal {n : Nat} {c : Char} (h : c ∈ (decimal n).toList) :
    c.isDigit = true := by
  rw [toList_decimal] at h
  exact Nat.isDigit_of_mem_toDigits (by decide) (by decide) h

theorem colon_notMem_decimal (n : Nat) : ':' ∉ (decimal n).toList := fun h =>
  absurd (isDigit_of_mem_decimal h) (by decide)

theorem notMem_toDigits_of_not_digit {c : Char} (h : c.isDigit = false) (n : Nat) :
    c ∉ Nat.toDigits 10 n := by
  intro hmem
  rw [Nat.isDigit_of_mem_toDigits (by decide) (by decide) hmem] at h
  cases h

theorem toDigits_inj {m n : Nat} (h : Nat.toDigits 10 m = Nat.toDigits 10 n) : m = n := by
  rw [← Nat.ofDigitChars_ten_toDigits (n := m), h, Nat.ofDigitChars_ten_toDigits]

/-- A number in decimal digits is read back. -/
theorem readNumber_decimal {n limit : Nat} (h : n ≤ limit) :
    readNumber 10 limit (decimal n).toList = some n := by
  have hread : readDigits 10 0 (decimal n).toList = some n := by
    rw [readDigits_of_isDigit fun _ => isDigit_of_mem_decimal, toList_decimal,
      Nat.ofDigitChars_ten_toDigits]
  have hdigits : (decimal n).toList ≠ [] := by
    rw [toList_decimal]
    exact Nat.toDigits_ne_nil
  have hplus : ∀ rest, (decimal n).toList ≠ '+' :: rest := by
    intro rest heq
    have hdigit : '+'.isDigit = true := isDigit_of_mem_decimal (heq ▸ List.mem_cons_self)
    exact absurd hdigit (by decide)
  unfold readNumber
  split
  · next rest heq => exact absurd heq (hplus rest)
  · simp [hdigits, hread, h]

theorem readDecimal_decimal {n limit : Nat} (h : n ≤ limit) :
    readDecimal limit (decimal n) = some n := readNumber_decimal h

/-- Numbers of 64 bits are within the limit of their readers. -/
theorem toNat_le_greatest (n : UInt64) : n.toNat ≤ greatest 64 := by
  have hlt := n.toNat_lt
  have hgreatest : greatest 64 = 2 ^ 64 - 1 := rfl
  omega

/-! ### Blanks at the ends -/

theorem trimChars_of_no_blank {cs : List Char} (h : ∀ c ∈ cs, isBlank c = false) :
    trimChars cs = cs := by
  have hkeep : ∀ xs : List Char, (∀ c ∈ xs, isBlank c = false) → xs.dropWhile isBlank = xs := by
    intro xs hxs
    cases xs with
    | nil => rfl
    | cons c rest => rw [List.dropWhile_cons_of_neg (by simp [hxs c])]
  rw [trimChars, hkeep cs h, hkeep cs.reverse (by simpa using h), List.reverse_reverse]

theorem isBlank_of_isDigit {c : Char} (h : c.isDigit = true) : isBlank c = false := by
  have hbounds := digit_bounds h
  simp only [isBlank, Bool.or_eq_false_iff, Bool.and_eq_false_iff, decide_eq_false_iff_not,
    beq_eq_false_iff_ne]
  omega

theorem trim_decimal (n : Nat) : trim (decimal n) = decimal n := by
  rw [trim, trimChars_of_no_blank fun c hc => isBlank_of_isDigit (isDigit_of_mem_decimal hc),
    String.ofList_toList]

/-! ### Hexadecimal pairs -/

theorem digitValue?_hexDigit : ∀ n < 16, digitValue? 16 (hexDigit n) = some n := by decide

theorem hexDigit_ne_plus : ∀ n < 16, hexDigit n ≠ '+' := by decide

/-- What a pair of hexadecimal digits is made of is neither blank nor a colon. -/
theorem hexDigit_plain : ∀ n < 16, isBlank (hexDigit n) = false ∧ hexDigit n ≠ ':' := by decide

theorem mem_hexPair {octet : UInt8} {c : Char} (h : c ∈ hexPair octet) :
    ∃ n < 16, c = hexDigit n := by
  have hlt := octet.toNat_lt
  simp only [hexPair, List.mem_cons, List.not_mem_nil, or_false] at h
  obtain rfl | rfl := h
  · exact ⟨_, by omega, rfl⟩
  · exact ⟨_, by omega, rfl⟩

theorem readNumber_hexPair (octet : UInt8) :
    readNumber 16 255 (hexPair octet) = some octet.toNat := by
  have hlt := octet.toNat_lt
  have hhigh : octet.toNat / 16 < 16 := by omega
  have hlow : octet.toNat % 16 < 16 := by omega
  have hvalue : octet.toNat / 16 * 16 + octet.toNat % 16 = octet.toNat := by omega
  have hle : octet.toNat ≤ 255 := by omega
  unfold readNumber
  split
  · next rest heq => exact absurd (List.cons.inj heq).1 (hexDigit_ne_plus _ hhigh)
  · simp [hexPair, readDigits, digitValue?_hexDigit _ hhigh, digitValue?_hexDigit _ hlow, hvalue,
      hle]

/-! ### Digits in a base up to sixteen -/

variable {base : Nat}

theorem digitValue?_digitChar :
    ∀ base ≤ 16, ∀ d < base, digitValue? base d.digitChar = some d := by decide

/-- Digits are neither dots nor colons. -/
theorem digitChar_ne_separator : ∀ d < 16, d.digitChar ≠ '.' ∧ d.digitChar ≠ ':' := by decide

theorem readDigits_append (acc : Nat) (cs ds : List Char) :
    readDigits base acc (cs ++ ds) = (readDigits base acc cs).bind fun n => readDigits base n ds := by
  induction cs generalizing acc with
  | nil => rfl
  | cons c rest ih =>
    rw [List.cons_append, readDigits, readDigits, Option.bind_assoc]
    congr 1
    funext d
    exact ih _

/-- What cannot be a digit cannot stand among digits. -/
theorem readDigits_eq_none {cs : List Char} {c : Char} (hc : c ∈ cs)
    (hvalue : digitValue? base c = none) (acc : Nat) : readDigits base acc cs = none := by
  induction cs generalizing acc with
  | nil => cases hc
  | cons first rest ih =>
    rw [readDigits]
    obtain rfl | hrest := List.mem_cons.1 hc
    · rw [hvalue, Option.bind_none]
    · cases digitValue? base first with
      | none => rfl
      | some d => exact ih hrest _

/-- What is neither a plus sign nor a digit cannot stand in a numeral. -/
theorem notMem_of_readNumber {limit n : Nat} {cs : List Char} {c : Char} (hplus : c ≠ '+')
    (hvalue : digitValue? base c = none) (h : readNumber base limit cs = some n) : c ∉ cs := by
  intro hc
  have hdigits : ∀ digits, c ∈ digits →
      (if digits.isEmpty then none else (readDigits base 0 digits).filter (· ≤ limit)) = none := by
    intro digits hmem
    rw [readDigits_eq_none hmem hvalue, Option.filter_none, ite_self]
  unfold readNumber at h
  split at h
  · rw [hdigits _ ((List.mem_cons.1 hc).resolve_left hplus)] at h
    cases h
  · rw [hdigits _ hc] at h
    cases h

theorem le_of_readNumber {limit n : Nat} {cs : List Char} (h : readNumber base limit cs = some n) :
    n ≤ limit := by
  unfold readNumber at h
  obtain ⟨-, h⟩ := Option.ite_none_left_eq_some.1 h
  exact of_decide_eq_true (Option.filter_eq_some_iff.1 h).2

theorem readDigits_toDigits (hone : 1 < base) (hbase : base ≤ 16) (n : Nat) :
    readDigits base 0 (Nat.toDigits base n) = some n := by
  induction n using Nat.strongRecOn with
  | ind n ih =>
    by_cases hlt : n < base
    · rw [Nat.toDigits_of_lt_base hlt, readDigits, digitValue?_digitChar base hbase n hlt,
        Option.bind_some, readDigits, Nat.zero_mul, Nat.zero_add]
    · have hle : base ≤ n := Nat.le_of_not_lt hlt
      have hsmaller : n / base < n := Nat.div_lt_self (by omega) hone
      have hlast : n % base < base := Nat.mod_lt n (by omega)
      rw [Nat.toDigits_of_base_le hone hle, readDigits_append, ih _ hsmaller, Option.bind_some,
        readDigits, digitValue?_digitChar base hbase _ hlast, Option.bind_some, readDigits,
        Nat.div_add_mod']

theorem exists_digitChar_of_mem_toDigits (hone : 1 < base) {n : Nat} {c : Char}
    (h : c ∈ Nat.toDigits base n) : ∃ d < base, c = d.digitChar := by
  induction n using Nat.strongRecOn with
  | ind n ih =>
    by_cases hlt : n < base
    · rw [Nat.toDigits_of_lt_base hlt, List.mem_singleton] at h
      exact ⟨n, hlt, h⟩
    · have hle : base ≤ n := Nat.le_of_not_lt hlt
      rw [Nat.toDigits_of_base_le hone hle, List.mem_append, List.mem_singleton] at h
      obtain h | rfl := h
      · exact ih _ (Nat.div_lt_self (by omega) hone) h
      · exact ⟨n % base, Nat.mod_lt n (by omega), rfl⟩

/-- Only zero is written with a zero in front. -/
theorem eq_zero_of_head?_toDigits (hone : 1 < base) {n : Nat}
    (h : (Nat.toDigits base n).head? = some '0') : n = 0 := by
  induction n using Nat.strongRecOn with
  | ind n ih =>
    by_cases hlt : n < base
    · rw [Nat.toDigits_of_lt_base hlt, List.head?_cons, Option.some.injEq] at h
      exact Nat.digitChar_eq_zero.1 h
    · have hle : base ≤ n := Nat.le_of_not_lt hlt
      obtain ⟨c, rest, hcons⟩ :=
        List.exists_cons_of_ne_nil (Nat.toDigits_ne_nil (n := n / base) (b := base))
      have hfront : (Nat.toDigits base (n / base)).head? = some '0' := by
        rw [Nat.toDigits_of_base_le hone hle, hcons] at h
        rw [hcons]
        exact h
      have hsmall := ih _ (Nat.div_lt_self (by omega) hone) hfront
      exact absurd (Nat.div_eq_zero_iff.1 hsmall) (by omega)

theorem separator_notMem_toDigits (hone : 1 < base) (hbase : base ≤ 16) (n : Nat) :
    '.' ∉ Nat.toDigits base n ∧ ':' ∉ Nat.toDigits base n := by
  constructor
  all_goals
    intro h
    obtain ⟨d, hd, heq⟩ := exists_digitChar_of_mem_toDigits hone h
    have hne := digitChar_ne_separator d (by omega)
    simp [← heq] at hne

theorem eq_digitChar_of_digitValue? {c : Char} {d : Nat} (h : digitValue? 10 c = some d) :
    d < 10 ∧ c = d.digitChar := by
  have hchar : ∀ n ≤ 57, 48 ≤ n → (n - 48).digitChar = Char.ofNat n := by decide
  unfold digitValue? at h
  obtain ⟨hvalue, hlt⟩ := Option.filter_eq_some_iff.1 h
  have hlt : d < 10 := of_decide_eq_true hlt
  refine ⟨hlt, ?_⟩
  split at hvalue
  · next hrange =>
    obtain rfl := Option.some.inj hvalue
    have hlow : 48 ≤ c.toNat := hrange.1
    have hhigh : c.toNat ≤ 57 := hrange.2
    rw [show '0'.toNat = 48 from rfl, hchar c.toNat hhigh hlow, Char.ofNat_toNat]
  · split at hvalue
    · have := Option.some.inj hvalue
      omega
    · split at hvalue
      · have := Option.some.inj hvalue
        omega
      · cases hvalue

/-- A decimal numeral without leading zeros is the one that is written for its value. -/
theorem eq_toDigits_of_readDigits {cs : List Char} {n : Nat} (h : readDigits 10 0 cs = some n)
    (hne : cs ≠ []) (hzero : cs.head? = some '0' → cs.length = 1) : cs = Nat.toDigits 10 n := by
  induction cs using List.reverseRecOn generalizing n with
  | nil => exact absurd rfl hne
  | append_singleton front c ih =>
    rw [readDigits_append] at h
    obtain ⟨m, hfront, hlast⟩ := Option.bind_eq_some_iff.1 h
    obtain ⟨d, hvalue, hsum⟩ := Option.bind_eq_some_iff.1 hlast
    obtain ⟨hd, rfl⟩ := eq_digitChar_of_digitValue? hvalue
    obtain rfl : m * 10 + d = n := Option.some.inj hsum
    by_cases hempty : front = []
    · subst hempty
      obtain rfl : 0 = m := Option.some.inj hfront
      rw [Nat.zero_mul, Nat.zero_add, Nat.toDigits_of_lt_base hd, List.nil_append]
    · -- the digits before the last do not start with a zero, so what they stand for is not zero
      have hhead : front.head? ≠ some '0' := by
        intro hfirst
        have hlength := hzero (by rw [List.head?_append, hfirst, Option.some_or])
        rw [List.length_append, List.length_singleton] at hlength
        exact hempty (List.length_eq_zero_iff.1 (by omega))
      have hwritten := ih hfront hempty fun hfirst => absurd hfirst hhead
      have hpos : 0 < m := by
        refine Nat.pos_of_ne_zero ?_
        rintro rfl
        exact hhead (hwritten ▸ rfl)
      rw [Nat.mul_comm, ← Nat.toDigits_append_toDigits (by decide) hpos hd, ← hwritten,
        Nat.toDigits_of_lt_base hd]

/-! ### Parts that are read one by one -/

/-- Parts that were written one by one are read one by one. -/
theorem mapM_map_eq_some {α β : Type} {write : α → β} {read : β → Option α}
    (h : ∀ a, read (write a) = some a) (values : List α) :
    (values.map write).mapM read = some values := by
  rw [List.mapM_map, show read ∘ write = some from funext h]
  exact List.mapM_pure.trans (congrArg some (List.map_id _))

theorem mapM_eq_some_iff {α β : Type} {read : β → Option α} {parts : List β} {values : List α} :
    parts.mapM read = some values ↔
      List.Forall₂ (fun part a => read part = some a) parts values := by
  induction parts generalizing values with
  | nil =>
    rw [List.mapM_nil, List.forall₂_nil_left_iff]
    exact ⟨fun h => (Option.some.inj h).symm, fun h => congrArg some h.symm⟩
  | cons part rest ih =>
    rw [List.mapM_cons]
    constructor
    · intro h
      obtain ⟨a, hpart, h⟩ := Option.bind_eq_some_iff.1 h
      obtain ⟨others, hrest, h⟩ := Option.bind_eq_some_iff.1 h
      obtain rfl : a :: others = values := Option.some.inj h
      exact .cons hpart (ih.1 hrest)
    · rintro (_ | ⟨hpart, hrest⟩)
      rw [hpart, ih.2 hrest]
      rfl

/-- Where what is read of a part says what the part is turned into, the parts that were read are
turned into what is written. -/
theorem map_eq_map_of_mapM {α β γ : Type} {f : β → γ} {write : α → γ} {read : β → Option α}
    (h : ∀ part a, read part = some a → f part = write a) {parts : List β} {values : List α}
    (hread : parts.mapM read = some values) : parts.map f = values.map write := by
  have hall := mapM_eq_some_iff.1 hread
  clear hread
  induction hall with
  | nil => rfl
  | cons hpart _ ih => rw [List.map_cons, List.map_cons, h _ _ hpart, ih]

/-- Where a part is read in one writing only, the parts that were read are the ones that are written. -/
theorem eq_map_of_mapM {α β : Type} {write : α → β} {read : β → Option α}
    (h : ∀ part a, read part = some a → part = write a) {parts : List β} {values : List α}
    (hread : parts.mapM read = some values) : parts = values.map write :=
  (List.map_id parts).symm.trans (map_eq_map_of_mapM h hread)

/-! ### Parts joined by a separator -/

theorem splitAt_of_not_mem {sep : Char} {part : List Char} (h : sep ∉ part) :
    splitAt sep part = [part] := by
  induction part with
  | nil => rfl
  | cons c rest ih =>
    rw [List.mem_cons, not_or] at h
    rw [splitAt, if_neg (Ne.symm h.1), ih h.2]

theorem splitAt_append {sep : Char} {part : List Char} (h : sep ∉ part) (rest : List Char) :
    splitAt sep (part ++ sep :: rest) = part :: splitAt sep rest := by
  induction part with
  | nil => rw [List.nil_append, splitAt, if_pos rfl]
  | cons c others ih =>
    rw [List.mem_cons, not_or] at h
    rw [List.cons_append, splitAt, if_neg (Ne.symm h.1), ih h.2]

/-- Parts without the separator are told apart again once they are joined by it. -/
theorem splitAt_intercalate {sep : Char} {parts : List (List Char)} (hne : parts ≠ [])
    (h : ∀ part ∈ parts, sep ∉ part) : splitAt sep ([sep].intercalate parts) = parts := by
  induction parts with
  | nil => exact absurd rfl hne
  | cons part rest ih =>
    rw [List.forall_mem_cons] at h
    cases rest with
    | nil => simpa using splitAt_of_not_mem h.1
    | cons next more =>
      rw [List.intercalate_cons_cons, List.append_assoc, List.singleton_append,
        splitAt_append h.1, ih (by simp) h.2]

theorem notMem_of_mem_splitAt {sep : Char} {cs part : List Char} (h : part ∈ splitAt sep cs) :
    sep ∉ part := by
  induction cs generalizing part with
  | nil =>
    rw [List.mem_singleton.1 h]
    exact List.not_mem_nil
  | cons c rest ih =>
    rw [splitAt] at h
    split at h
    · obtain rfl | h := List.mem_cons.1 h
      · exact List.not_mem_nil
      · exact ih h
    · next hc =>
      cases hs : splitAt sep rest with
      | nil => exact absurd hs (splitAt_ne_nil sep rest)
      | cons first others =>
        simp only [hs] at h ih
        obtain rfl | h := List.mem_cons.1 h
        · rw [List.mem_cons, not_or]
          exact ⟨Ne.symm hc, ih List.mem_cons_self⟩
        · exact ih (List.mem_cons_of_mem _ h)

theorem splitAt_eq_pair_iff {sep : Char} {cs before after : List Char} :
    splitAt sep cs = [before, after] ↔ sep ∉ before ∧ sep ∉ after ∧ cs = before ++ sep :: after := by
  constructor
  · intro h
    have hparts : ∀ part ∈ [before, after], sep ∉ part := by
      rw [← h]
      exact fun _ => notMem_of_mem_splitAt
    refine ⟨hparts before (by simp), hparts after (by simp), ?_⟩
    rw [← intercalate_splitAt sep cs, h, List.intercalate_cons_cons]
    simp
  · rintro ⟨hbefore, hafter, rfl⟩
    rw [splitAt_append hbefore, splitAt_of_not_mem hafter]

/-- A text is told apart at the last occurrence of a character. -/
theorem append_cons_inj_of_last {c : Char} {xs ys ds es : List Char} (hds : c ∉ ds) (hes : c ∉ es)
    (h : xs ++ c :: ds = ys ++ c :: es) : xs = ys ∧ ds = es := by
  obtain ⟨mid, hys, hmid⟩ | ⟨mid, hxs, hmid⟩ := List.append_eq_append_iff.1 h
  · cases mid with
    | nil => exact ⟨by simpa using hys.symm, by simpa using hmid⟩
    | cons m rest =>
      obtain ⟨-, rfl⟩ := List.cons.inj hmid
      exact absurd (by simp) hds
  · cases mid with
    | nil => exact ⟨by simpa using hxs, by simpa using hmid.symm⟩
    | cons m rest =>
      obtain ⟨-, rfl⟩ := List.cons.inj hmid
      exact absurd (by simp) hes

theorem sep_mem_intercalate (sep : Char) (first second : List Char) (rest : List (List Char)) :
    sep ∈ [sep].intercalate (first :: second :: rest) := by
  simp [List.intercalate_cons_cons]

/-- Whatever stands in joined parts is the separator or stands in one of them. -/
theorem mem_intercalate {sep c : Char} {parts : List (List Char)}
    (h : c ∈ [sep].intercalate parts) : c = sep ∨ ∃ part ∈ parts, c ∈ part := by
  induction parts with
  | nil => cases h
  | cons part rest ih =>
    cases rest with
    | nil => exact .inr ⟨part, List.mem_cons_self, by simpa using h⟩
    | cons next more =>
      rw [List.intercalate_cons_cons, List.append_assoc, List.singleton_append, List.mem_append,
        List.mem_cons] at h
      obtain hpart | rfl | hrest := h
      · exact .inr ⟨part, List.mem_cons_self, hpart⟩
      · exact .inl rfl
      · exact (ih hrest).imp_right fun ⟨p, hp, hc⟩ => ⟨p, List.mem_cons_of_mem _ hp, hc⟩

/-! ### Letters in either case -/

theorem toLower_cases (c : Char) :
    65 ≤ c.toNat ∧ c.toNat ≤ 90 ∧ c.toLower.toNat = c.toNat + 32
      ∨ ¬ (65 ≤ c.toNat ∧ c.toNat ≤ 90) ∧ c.toLower = c := by
  by_cases hupper : c.val ≥ 'A'.val ∧ c.val ≤ 'Z'.val
  · have hlower : c.toLower.val = c.val + 32 := congrArg Char.val (dif_pos hupper)
    have hge : 65 ≤ c.toNat := hupper.1
    have hle : c.toNat ≤ 90 := hupper.2
    have hsum : c.toLower.toNat = (c.toNat + 32) % 2 ^ 32 := congrArg UInt32.toNat hlower
    exact .inl ⟨hge, hle, by omega⟩
  · exact .inr ⟨hupper, dif_neg hupper⟩

theorem eq_of_toLower_lt {c : Char} (h : c.toLower.toNat < 65) : c.toLower = c := by
  obtain ⟨hge, hle, hsum⟩ | ⟨-, hsame⟩ := toLower_cases c
  · omega
  · exact hsame

theorem toLower_toLower (c : Char) : c.toLower.toLower = c.toLower := by
  obtain ⟨hge, hle, -⟩ | ⟨-, hsame⟩ := toLower_cases c.toLower
  · obtain ⟨hge', hle', hsum⟩ | ⟨hupper, hsame⟩ := toLower_cases c
    · omega
    · rw [hsame] at hge hle
      exact absurd ⟨hge, hle⟩ hupper
  · exact hsame

theorem map_toLower_of_lt {cs : List Char} (h : ∀ c ∈ cs, c.toNat < 65) :
    cs.map Char.toLower = cs := by
  refine (List.map_congr_left fun c hc => ?_).trans (List.map_id _)
  obtain ⟨hge, -, -⟩ | ⟨-, hsame⟩ := toLower_cases c
  · exact absurd (h c hc) (by omega)
  · exact hsame

theorem map_toLower_eq {h k : String} (hcase : h.toLower = k.toLower) :
    h.toList.map Char.toLower = k.toList.map Char.toLower := by
  rw [← String.toList_map, ← String.toList_map]
  exact congrArg String.toList hcase

end Multidomain.Text
