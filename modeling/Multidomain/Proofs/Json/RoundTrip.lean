import Multidomain.Json.Reader
import Multidomain.Json.Writer
import Multidomain.Proofs.Json.Plain
import Multidomain.Proofs.Text.Numeral

/-!
# JSON texts that were written

The text of a value is read back as that value, if the value is of the kind that nodes send each other:
no part of it is illegible, its numbers are whole and not negative, and it is nested no deeper than a
reader goes. Every piece of a text is read back with whatever follows it left over, so that the pieces
can be put together.
-/

namespace Multidomain.Json

/-! ### Bytes -/

theorem bytesOf_append (s t : String) : bytesOf (s ++ t) = bytesOf s ++ bytesOf t := by
  simp [bytesOf, String.toUTF8_eq_toByteArray, String.toByteArray_append]

theorem bytesOf_ofList (cs : List Char) :
    bytesOf (String.ofList cs) = cs.flatMap String.utf8EncodeChar := by
  rw [bytesOf, String.toUTF8_eq_toByteArray, String.toByteArray_ofList, List.utf8Encode,
    List.toList_data_toByteArray]

theorem bytesOf_eq (s : String) : bytesOf s = s.toList.flatMap String.utf8EncodeChar := by
  rw [← bytesOf_ofList, String.ofList_toList]

/-- The bytes of a text are those of the text. -/
theorem textOfReversed?_bytesOf (s : String) : textOfReversed? (bytesOf s).reverse = some s := by
  have hbytes : ByteArray.mk (bytesOf s).reverse.reverse.toArray = s.toByteArray := by
    rw [List.reverse_reverse, bytesOf, String.toUTF8_eq_toByteArray]
  unfold textOfReversed? String.fromUTF8?
  rw [hbytes, dif_pos s.isValidUTF8]
  rfl

theorem utf8EncodeChar_of_ascii {c : Char} (h : c.toNat < 128) :
    String.utf8EncodeChar c = [UInt8.ofNat c.toNat] := by
  have hle : c.val.toNat ≤ 127 := by
    have : c.toNat = c.val.toNat := rfl
    omega
  simp only [String.utf8EncodeChar]
  rw [if_pos hle]
  rfl

/-- No byte of a character beyond the first 128 is a quote, a backslash or a control character. -/
theorem le_of_mem_utf8EncodeChar {c : Char} (h : 128 ≤ c.toNat) {b : UInt8}
    (hb : b ∈ String.utf8EncodeChar c) : 128 ≤ b.toNat := by
  have hnot : ¬c.val.toNat ≤ 127 := by
    have : c.toNat = c.val.toNat := rfl
    omega
  simp only [String.utf8EncodeChar] at hb
  rw [if_neg hnot] at hb
  split at hb
  · simp only [List.mem_cons, List.not_mem_nil, or_false] at hb
    obtain rfl | rfl := hb <;> rw [UInt8.toNat_ofNat'] <;> omega
  · split at hb
    · simp only [List.mem_cons, List.not_mem_nil, or_false] at hb
      obtain rfl | rfl | rfl := hb <;> rw [UInt8.toNat_ofNat'] <;> omega
    · simp only [List.mem_cons, List.not_mem_nil, or_false] at hb
      obtain rfl | rfl | rfl | rfl := hb <;> rw [UInt8.toNat_ofNat'] <;> omega

/-! ### Texts in quotes -/

theorem readText_plain {b : UInt8} (hquote : b ≠ 0x22) (hslash : b ≠ 0x5C) (hcontrol : ¬b < 0x20)
    (acc rest : List UInt8) :
    readText acc true none .plain (b :: rest) = readText (b :: acc) true none .plain rest := by
  rw [readText, if_neg hquote, if_neg hslash, if_neg hcontrol]
  rfl

theorem readText_bytes {bytes : List UInt8} (h : ∀ b ∈ bytes, 128 ≤ b.toNat)
    (acc rest : List UInt8) :
    readText acc true none .plain (bytes ++ rest) =
      readText (bytes.reverse ++ acc) true none .plain rest := by
  induction bytes generalizing acc with
  | nil => rfl
  | cons b bytes ih =>
    rw [List.forall_mem_cons] at h
    have hhigh : ∀ n : UInt8, n.toNat < 128 → b ≠ n := by
      rintro n hn rfl
      omega
    rw [List.cons_append, readText_plain (hhigh _ (by decide)) (hhigh _ (by decide))
      (by rw [UInt8.lt_iff_toNat_lt]; have : (0x20 : UInt8).toNat = 32 := rfl; omega), ih h.2]
    simp

theorem readText_letter {e b : UInt8} (h : escapedByte? e = some b) (hhex : e ≠ 0x75)
    (acc rest : List UInt8) :
    readText acc true none .plain (0x5C :: e :: rest) =
      readText (b :: acc) true none .plain rest := by
  rw [readText, if_neg (by decide), if_pos rfl, readText, if_neg hhex, h]
  rfl

theorem hexByte?_lowerHexDigit : ∀ n < 16,
    hexByte? (UInt8.ofNat (Text.lowerHexDigit n).toNat) = some n := by decide

theorem reversedScalar_of_ascii {c : Char} (h : c.toNat < 128) :
    reversedScalar c.toNat = [UInt8.ofNat c.toNat] := by
  rw [reversedScalar, Char.ofNat_toNat, utf8EncodeChar_of_ascii h]
  rfl

/-- A control character is written by its number. -/
theorem readText_control {c : Char} (h : c.toNat < 0x20) (acc rest : List UInt8) :
    readText acc true none .plain
        (0x5C :: 0x75 :: 0x30 :: 0x30 :: UInt8.ofNat (Text.lowerHexDigit (c.toNat / 16)).toNat ::
          UInt8.ofNat (Text.lowerHexDigit (c.toNat % 16)).toNat :: rest) =
      readText (UInt8.ofNat c.toNat :: acc) true none .plain rest := by
  have hhigh := hexByte?_lowerHexDigit (c.toNat / 16) (by omega)
  have hlow := hexByte?_lowerHexDigit (c.toNat % 16) (by omega)
  have hzero : hexByte? 0x30 = some 0 := rfl
  have hvalue : (((0 * 16 + 0) * 16 + 0) * 16 + c.toNat / 16) * 16 + c.toNat % 16 = c.toNat := by
    omega
  rw [readText, if_neg (by decide), if_pos rfl, readText, if_pos rfl]
  simp only [readText, hzero, hhigh, hlow, hvalue]
  have hsurrogate : (0xD800 ≤ c.toNat && c.toNat < 0xDC00) = false ∧
      (0xDC00 ≤ c.toNat && c.toNat < 0xE000) = false := by
    simp only [Bool.and_eq_false_iff, decide_eq_false_iff_not]
    omega
  simp [hsurrogate, reversedScalar_of_ascii (show c.toNat < 128 by omega)]

theorem toNat_lowerHexDigit_lt : ∀ n < 16, (Text.lowerHexDigit n).toNat < 128 := by decide

/-- Whatever a character is written as, it is read back. -/
theorem readText_escape (c : Char) (acc rest : List UInt8) :
    readText acc true none .plain (bytesOf (escape c) ++ rest) =
      readText ((String.utf8EncodeChar c).reverse ++ acc) true none .plain rest := by
  unfold escape
  split
  -- A letter stands for a quote, a backslash and five of the control characters.
  iterate 7 exact readText_letter rfl (by decide) acc rest
  next hquote hslash _ _ _ _ _ =>
  split
  · next hcontrol =>
    have hhigh := toNat_lowerHexDigit_lt (c.toNat / 16) (by omega)
    have hlow := toNat_lowerHexDigit_lt (c.toNat % 16) (by omega)
    have hbytes : bytesOf ("\\u00" ++
        String.ofList [Text.lowerHexDigit (c.toNat / 16), Text.lowerHexDigit (c.toNat % 16)]) =
        [0x5C, 0x75, 0x30, 0x30, UInt8.ofNat (Text.lowerHexDigit (c.toNat / 16)).toNat,
          UInt8.ofNat (Text.lowerHexDigit (c.toNat % 16)).toNat] := by
      rw [bytesOf_append, bytesOf_ofList [_, _]]
      simp only [List.flatMap_cons, List.flatMap_nil, utf8EncodeChar_of_ascii hhigh,
        utf8EncodeChar_of_ascii hlow]
      rfl
    rw [hbytes, utf8EncodeChar_of_ascii (show c.toNat < 128 by omega)]
    exact readText_control hcontrol acc rest
  · next hcontrol =>
    have hbytes : bytesOf c.toString = String.utf8EncodeChar c := by
      rw [show c.toString = String.ofList [c] from (String.singleton_eq_ofList).symm ▸ rfl,
        bytesOf_ofList, List.flatMap_singleton]
    rw [hbytes]
    -- Any other character stands for itself, as one byte or as several that are all beyond the first 128.
    by_cases hascii : c.toNat < 128
    · have hbyte : ∀ n < 128, c.toNat ≠ n → UInt8.ofNat c.toNat ≠ UInt8.ofNat n := by
        intro n hn hne heq
        have htoNat := congrArg UInt8.toNat heq
        rw [UInt8.toNat_ofNat', UInt8.toNat_ofNat'] at htoNat
        omega
      have hne : ∀ d : Char, c ≠ d → c.toNat ≠ d.toNat :=
        fun d hcd heq => hcd (Char.toNat_inj.1 heq)
      rw [utf8EncodeChar_of_ascii hascii]
      apply readText_plain (hbyte 0x22 (by decide) (hne '"' hquote))
        (hbyte 0x5C (by decide) (hne '\\' hslash))
      rw [UInt8.lt_iff_toNat_lt, UInt8.toNat_ofNat', show (0x20 : UInt8).toNat = 32 from rfl]
      omega
    · exact readText_bytes (fun b => le_of_mem_utf8EncodeChar (by omega)) acc rest

theorem readText_escapes (cs : List Char) (acc rest : List UInt8) :
    readText acc true none .plain (cs.flatMap (fun c => bytesOf (escape c)) ++ rest) =
      readText ((cs.flatMap String.utf8EncodeChar).reverse ++ acc) true none .plain rest := by
  induction cs generalizing acc with
  | nil => rfl
  | cons c cs ih =>
    rw [List.flatMap_cons, List.append_assoc, readText_escape, ih]
    simp

theorem bytesOf_join (texts : List String) :
    bytesOf (String.join texts) = texts.flatMap bytesOf := by
  induction texts with
  | nil => rfl
  | cons s rest ih => rw [String.join_cons, bytesOf_append, ih, List.flatMap_cons]

theorem bytesOf_quote (s : String) :
    bytesOf (quote s) = 0x22 :: (s.toList.flatMap (fun c => bytesOf (escape c)) ++ [0x22]) := by
  rw [quote, bytesOf_append, bytesOf_append, bytesOf_join, List.flatMap_map]
  rfl

/-- A text in quotes is read back. -/
theorem readText_quote (s : String) (rest : List UInt8) :
    readText [] true none .plain
      (s.toList.flatMap (fun c => bytesOf (escape c)) ++ 0x22 :: rest) = some (some s, rest) := by
  rw [readText_escapes, List.append_nil, ← bytesOf_eq, readText, if_pos rfl,
    textOfReversed?_bytesOf]
  rfl

/-! ### Numbers -/

/-- What follows does not go on with a numeral. -/
def Ends (rest : List UInt8) : Prop :=
  ∀ b ∈ rest.head?, isDigitByte b = false ∧ b ≠ 0x2E ∧ b ≠ 0x65 ∧ b ≠ 0x45

theorem dropByte?_of_ne {b : UInt8} {rest : List UInt8} (h : ∀ c ∈ rest.head?, c ≠ b) :
    dropByte? b rest = none := by
  cases rest with
  | nil => rfl
  | cons c rest => exact if_neg (h c rfl)

theorem Ends.readFraction {rest : List UInt8} (h : Ends rest) :
    readFraction rest = some (none, rest) := by
  rw [Json.readFraction, dropByte?_of_ne fun c hc => (h c hc).2.1]

theorem Ends.readExponent {rest : List UInt8} (h : Ends rest) :
    readExponent rest = some (none, rest) := by
  rw [Json.readExponent, dropByte?_of_ne fun c hc => (h c hc).2.2.1,
    dropByte?_of_ne fun c hc => (h c hc).2.2.2]
  rfl

theorem Ends.readDigitRun {rest digits : List UInt8} (h : Ends rest)
    (hdigits : ∀ b ∈ digits, isDigitByte b = true) (hne : digits ≠ []) :
    readDigitRun (digits ++ rest) = some (digits.map digitOfByte, rest) := by
  have hstop : rest.takeWhile isDigitByte = [] ∧ rest.dropWhile isDigitByte = rest := by
    cases rest with
    | nil => exact ⟨rfl, rfl⟩
    | cons b rest => simp [(h b rfl).1]
  rw [Json.readDigitRun, List.takeWhile_append_of_pos hdigits, List.dropWhile_append_of_pos hdigits,
    hstop.1, hstop.2, List.append_nil]
  simp [hne]

/-- The byte of a decimal digit. -/
theorem digit_byte {c : Char} (h : c.isDigit = true) :
    isDigitByte (UInt8.ofNat c.toNat) = true ∧
      digitOfByte (UInt8.ofNat c.toNat) = c.toNat - '0'.toNat := by
  have hbounds := Text.digit_bounds h
  have hbyte : (UInt8.ofNat c.toNat).toNat = c.toNat := by
    rw [UInt8.toNat_ofNat']
    omega
  constructor
  · simp only [isDigitByte, Bool.and_eq_true, decide_eq_true_eq, UInt8.le_iff_toNat_le, hbyte]
    exact hbounds
  · rw [digitOfByte, hbyte]
    rfl

theorem bytesOf_decimal (n : Nat) :
    bytesOf (Text.decimal n) = (Nat.toDigits 10 n).map fun c => UInt8.ofNat c.toNat := by
  have hall : ∀ cs : List Char, (∀ c ∈ cs, c.isDigit = true) →
      cs.flatMap String.utf8EncodeChar = cs.map fun c => UInt8.ofNat c.toNat := by
    intro cs hcs
    induction cs with
    | nil => rfl
    | cons c cs ih =>
      rw [List.forall_mem_cons] at hcs
      have hascii : c.toNat < 128 := by
        have := Text.digit_bounds hcs.1
        omega
      rw [List.flatMap_cons, utf8EncodeChar_of_ascii hascii, ih hcs.2]
      rfl
  rw [bytesOf_eq, Text.toList_decimal]
  exact hall _ fun c hc => Nat.isDigit_of_mem_toDigits (by decide) (by decide) hc

theorem le_ofDigitChars (cs : List Char) (acc : Nat) : acc ≤ Nat.ofDigitChars 10 cs acc := by
  induction cs generalizing acc with
  | nil => exact Nat.le_refl acc
  | cons c cs ih =>
    rw [Nat.ofDigitChars_cons]
    have := ih (10 * acc + (c.toNat - '0'.toNat))
    omega

/-- All digits of a number of 64 bits are taken. -/
theorem leadingWord_of_le {cs : List Char} {acc : Nat}
    (h : Nat.ofDigitChars 10 cs acc ≤ Text.greatest 64) :
    leadingWord acc (cs.map fun c => c.toNat - '0'.toNat) = (Nat.ofDigitChars 10 cs acc, 0) := by
  induction cs generalizing acc with
  | nil => rfl
  | cons c cs ih =>
    rw [Nat.ofDigitChars_cons, Nat.mul_comm] at h ⊢
    have hstep := le_ofDigitChars cs (acc * 10 + (c.toNat - '0'.toNat))
    rw [List.map_cons, leadingWord, if_neg (by omega), ih h]

/-- Only the numeral of zero begins with a zero. -/
theorem head?_toDigits {n : Nat} (h : n ≠ 0) : (Nat.toDigits 10 n).head? ≠ some '0' := by
  induction n using Nat.strongRecOn with
  | ind n ih =>
    by_cases hlt : n < 10
    · rw [Nat.toDigits_of_lt_base hlt]
      simpa [Nat.digitChar_eq_zero] using h
    · have hquotient := ih (n / 10) (by omega) (by omega)
      rw [Nat.toDigits_of_base_le (by decide) (Nat.le_of_not_lt hlt), List.head?_append]
      obtain ⟨c, cs, hdigits⟩ := List.exists_cons_of_ne_nil
        (Nat.toDigits_ne_nil : Nat.toDigits 10 (n / 10) ≠ [])
      rw [hdigits] at hquotient ⊢
      exact hquotient

/-- No zero stands before other digits of a number, as a reader demands of a numeral. -/
theorem not_leadingZero_toDigits (n : Nat) :
    ¬(((Nat.toDigits 10 n).map fun c => c.toNat - '0'.toNat).head? = some 0 ∧
      ((Nat.toDigits 10 n).map fun c => c.toNat - '0'.toNat).length ≠ 1) := by
  rintro ⟨hhead, hlength⟩
  by_cases hn : n = 0
  · subst hn
    exact hlength rfl
  · rw [List.head?_map] at hhead
    obtain ⟨c, hc, hvalue⟩ := Option.map_eq_some_iff.1 hhead
    have hdigit := Nat.isDigit_of_mem_toDigits (by decide) (by decide) (List.mem_of_head? hc)
    have hbounds := Text.digit_bounds hdigit
    have hchar : c.toNat = '0'.toNat := by
      have : '0'.toNat = 48 := rfl
      omega
    exact head?_toDigits hn (hc.trans (congrArg some (Char.toNat_inj.1 hchar)))

theorem isDigitByte_of_mem_decimal {n : Nat} {b : UInt8} (h : b ∈ bytesOf (Text.decimal n)) :
    isDigitByte b = true := by
  rw [bytesOf_decimal] at h
  obtain ⟨c, hc, rfl⟩ := List.mem_map.1 h
  exact (digit_byte (Nat.isDigit_of_mem_toDigits (by decide) (by decide) hc)).1

theorem exists_head_decimal (n : Nat) :
    ∃ b bs, bytesOf (Text.decimal n) = b :: bs ∧ isDigitByte b = true := by
  have hne : bytesOf (Text.decimal n) ≠ [] := by
    rw [bytesOf_decimal]
    simp
  obtain ⟨b, bs, hbytes⟩ := List.exists_cons_of_ne_nil hne
  exact ⟨b, bs, hbytes, isDigitByte_of_mem_decimal (hbytes ▸ List.mem_cons_self)⟩

/-- A byte that is no digit is told apart from one. -/
theorem ne_of_isDigitByte {b c : UInt8} (h : isDigitByte b = true) (hc : isDigitByte c = false) :
    b ≠ c := by
  rintro rfl
  exact absurd h (by simp [hc])

theorem notMem_of_isDigitByte {b : UInt8} (h : isDigitByte b = true) {bytes : List UInt8}
    (hbytes : bytes.any isDigitByte = false) : b ∉ bytes := fun hmem =>
  List.any_eq_false.1 hbytes b hmem h

/-- A number of 64 bits is read back. -/
theorem readNumeral_decimal {n : Nat} (h : n ≤ Text.greatest 64) {rest : List UInt8}
    (hrest : Ends rest) :
    ∃ numeral, readNumeral (bytesOf (Text.decimal n) ++ rest) = some (numeral, rest) ∧
      numeral.value? = some (.int n) := by
  have hdigit : ∀ c ∈ Nat.toDigits 10 n, c.isDigit = true :=
    fun c hc => Nat.isDigit_of_mem_toDigits (by decide) (by decide) hc
  obtain ⟨b, bs, hhead, hb⟩ := exists_head_decimal n
  have hne : bytesOf (Text.decimal n) ≠ [] := by simp [hhead]
  have hminus : dropByte? 0x2D (bytesOf (Text.decimal n) ++ rest) = none := by
    rw [hhead]
    exact if_neg (ne_of_isDigitByte hb rfl)
  have hwhole : (bytesOf (Text.decimal n)).map digitOfByte =
      (Nat.toDigits 10 n).map fun c => c.toNat - '0'.toNat := by
    rw [bytesOf_decimal, List.map_map]
    exact List.map_congr_left fun c hc => (digit_byte (hdigit c hc)).2
  have hzero := not_leadingZero_toDigits n
  refine ⟨⟨false, (Nat.toDigits 10 n).map fun c => c.toNat - '0'.toNat, none, none⟩, ?_, ?_⟩
  · simp only [readNumeral, hminus,
      hrest.readDigitRun (fun _ => isDigitByte_of_mem_decimal) hne, hwhole, Option.bind_eq_bind,
      Option.bind_some, if_neg hzero, hrest.readFraction, hrest.readExponent, Option.pure_def]
  · have hvalue : Nat.ofDigitChars 10 (Nat.toDigits 10 n) 0 ≤ Text.greatest 64 := by
      rwa [Nat.ofDigitChars_ten_toDigits]
    have hword := leadingWord_of_le hvalue
    rw [Nat.ofDigitChars_ten_toDigits] at hword
    simp only [Numeral.value?, hword]
    rfl

/-! ### Values -/

theorem bytesOf_render_array (items : List Json) :
    bytesOf (array items).render = 0x5B :: (bytesOf (renderItems items) ++ [0x5D]) := by
  rw [render, bytesOf_append, bytesOf_append]
  rfl

theorem bytesOf_render_object (fields : List (String × Json)) :
    bytesOf (object fields).render = 0x7B :: (bytesOf (renderFields fields) ++ [0x7D]) := by
  rw [render, bytesOf_append, bytesOf_append]
  rfl

theorem bytesOf_renderItems (item next : Json) (rest : List Json) :
    bytesOf (renderItems (item :: next :: rest)) =
      bytesOf item.render ++ 0x2C :: bytesOf (renderItems (next :: rest)) := by
  rw [renderItems, bytesOf_append, bytesOf_append, List.append_assoc]
  · rfl
  · simp

theorem bytesOf_renderFields_singleton (name : String) (value : Json) :
    bytesOf (renderFields [(name, value)]) =
      bytesOf (quote name) ++ 0x3A :: bytesOf value.render := by
  rw [renderFields, bytesOf_append, bytesOf_append, List.append_assoc]
  rfl

theorem bytesOf_renderFields (name : String) (value : Json) (next : String × Json)
    (rest : List (String × Json)) :
    bytesOf (renderFields ((name, value) :: next :: rest)) =
      bytesOf (quote name) ++
        0x3A :: (bytesOf value.render ++ 0x2C :: bytesOf (renderFields (next :: rest))) := by
  rw [renderFields, bytesOf_append, bytesOf_append, bytesOf_append, bytesOf_append,
    List.append_assoc, List.append_assoc, List.append_assoc]
  · rfl
  · simp

theorem skipBlanks_cons {b : UInt8} (h : b ∉ [0x20, 0x09, 0x0A, 0x0D]) (rest : List UInt8) :
    skipBlanks (b :: rest) = b :: rest := by
  simp only [List.mem_cons, List.not_mem_nil, or_false, not_or] at h
  simp [skipBlanks, h]

theorem exists_nat_of_plain {n : Number} {levels : Nat} (h : (number n).plain levels = true) :
    ∃ k : Nat, k ≤ Text.greatest 64 ∧ n = .int k ∧ (number n).render = Text.decimal k := by
  cases n with
  | double bits => cases h
  | int value =>
    simp only [plain, Bool.and_eq_true, decide_eq_true_eq] at h
    refine ⟨value.natAbs, by omega, by rw [Int.natAbs_of_nonneg h.1], ?_⟩
    rw [render, renderNumber, if_neg (by omega), String.empty_append]

/-- The text of a value begins with a byte that is neither blank nor a closing bracket. -/
theorem exists_head_render {v : Json} {levels : Nat} (h : v.plain levels = true) :
    ∃ b bs, bytesOf v.render = b :: bs ∧ b ∉ [0x20, 0x09, 0x0A, 0x0D, 0x5D] := by
  cases v with
  | null => exact ⟨_, _, rfl, by decide⟩
  | bool value => cases value <;> exact ⟨_, _, rfl, by decide⟩
  | string s => exact ⟨_, _, bytesOf_quote s, by decide⟩
  | array items => exact ⟨_, _, bytesOf_render_array items, by decide⟩
  | object fields => exact ⟨_, _, bytesOf_render_object fields, by decide⟩
  | illegible => cases h
  | number n =>
    obtain ⟨k, -, -, hrender⟩ := exists_nat_of_plain h
    obtain ⟨b, bs, hbytes, hb⟩ := exists_head_decimal k
    exact ⟨b, bs, by rw [hrender, hbytes], notMem_of_isDigitByte hb rfl⟩

theorem exists_head_renderItems {item : Json} {items : List Json} {levels : Nat}
    (h : plainItems (item :: items) levels = true) :
    ∃ b bs, bytesOf (renderItems (item :: items)) = b :: bs ∧
      b ∉ [0x20, 0x09, 0x0A, 0x0D, 0x5D] := by
  rw [plainItems, Bool.and_eq_true] at h
  obtain ⟨b, bs, hbytes, hb⟩ := exists_head_render h.1
  cases items with
  | nil => exact ⟨b, bs, hbytes, hb⟩
  | cons next rest => exact ⟨b, _, by rw [bytesOf_renderItems, hbytes, List.cons_append], hb⟩

theorem exists_head_renderFields (field : String × Json) (fields : List (String × Json)) :
    ∃ bs, bytesOf (renderFields (field :: fields)) = 0x22 :: bs := by
  obtain ⟨name, value⟩ := field
  cases fields with
  | nil =>
    exact ⟨_, by rw [bytesOf_renderFields_singleton, bytesOf_quote, List.cons_append]⟩
  | cons next rest =>
    exact ⟨_, by rw [bytesOf_renderFields, bytesOf_quote, List.cons_append]⟩

/-! ### Reading values -/

theorem ends_cons {b : UInt8} (h : isDigitByte b = false ∧ b ≠ 0x2E ∧ b ≠ 0x65 ∧ b ≠ 0x45)
    (rest : List UInt8) : Ends (b :: rest) := by
  intro c hc
  obtain rfl : b = c := Option.some.inj hc
  exact h

theorem readValue_text (levels fuel : Nat) (rest : List UInt8) :
    readValue levels (fuel + 1) (0x22 :: rest) =
      (readText [] true none .plain rest).map fun (s?, after) => (textOrIllegible s?, after) := by
  rw [readValue]
  rfl

theorem readValue_array {levels fuel : Nat} {rest : List UInt8}
    (h : dropByte? 0x5D (skipBlanks rest) = none) :
    readValue (levels + 1) (fuel + 1) (0x5B :: rest) =
      (readItems levels fuel rest).map fun (items, after) => (array items, after) := by
  rw [readValue]
  simp only [skipBlanks_cons (b := 0x5B) (by decide)]
  rw [if_neg (by decide), if_pos trivial, h]
  rfl

theorem readValue_object {levels fuel : Nat} {rest : List UInt8}
    (h : dropByte? 0x7D (skipBlanks rest) = none) :
    readValue (levels + 1) (fuel + 1) (0x7B :: rest) =
      (readFields levels fuel rest).map fun (fields?, after) =>
        (fieldsOrIllegible fields?, after) := by
  rw [readValue]
  simp only [skipBlanks_cons (b := 0x7B) (by decide)]
  rw [if_neg (by decide), if_neg (by decide), if_pos trivial, h]
  rfl

theorem readValue_number {levels fuel : Nat} {b : UInt8} {rest : List UInt8}
    (h : isDigitByte b = true) :
    readValue levels (fuel + 1) (b :: rest) =
      (readNumeral (b :: rest)).map fun (n, after) => (numberOrIllegible n.value?, after) := by
  rw [readValue]
  simp only [skipBlanks_cons (notMem_of_isDigitByte h rfl)]
  rw [if_neg (ne_of_isDigitByte h rfl), if_neg (ne_of_isDigitByte h rfl),
    if_neg (ne_of_isDigitByte h rfl), if_neg (ne_of_isDigitByte h rfl),
    if_neg (ne_of_isDigitByte h rfl), if_neg (ne_of_isDigitByte h rfl)]

/-- After an item either a comma stands or the closing bracket. -/
theorem readItems_cons {levels fuel : Nat} {bytes rest : List UInt8} {item : Json}
    (h : readValue levels fuel bytes = some (item, 0x2C :: rest)) :
    readItems levels (fuel + 1) bytes =
      (readItems levels fuel rest).map fun (items, after) => (item :: items, after) := by
  rw [readItems, h]
  rfl

theorem readItems_last {levels fuel : Nat} {bytes rest : List UInt8} {item : Json}
    (h : readValue levels fuel bytes = some (item, 0x5D :: rest)) :
    readItems levels (fuel + 1) bytes = some ([item], rest) := by
  rw [readItems, h]
  rfl

/-- After a field either a comma stands or the closing brace. -/
theorem readFields_cons {levels fuel : Nat} {name : String} {bytes rest : List UInt8} {value : Json}
    (h : readValue levels fuel bytes = some (value, 0x2C :: rest)) :
    readFields levels (fuel + 1) (bytesOf (quote name) ++ 0x3A :: bytes) =
      (readFields levels fuel rest).map fun (fields?, after) =>
        (withField (some name) value fields?, after) := by
  have hquote := readText_quote name (0x3A :: bytes)
  rw [bytesOf_quote, readFields, List.cons_append, List.append_assoc, List.singleton_append,
    skipBlanks_cons (by decide), dropByte?, if_pos rfl]
  simp only [Option.bind_eq_bind, Option.bind_some, hquote, skipBlanks_cons (b := 0x3A) (by decide),
    dropByte?, if_true, h, skipBlanks_cons (b := 0x2C) (by decide)]
  cases readFields levels fuel rest <;> rfl

theorem readFields_last {levels fuel : Nat} {name : String} {bytes rest : List UInt8} {value : Json}
    (h : readValue levels fuel bytes = some (value, 0x7D :: rest)) :
    readFields levels (fuel + 1) (bytesOf (quote name) ++ 0x3A :: bytes) =
      some (some [(name, value)], rest) := by
  have hquote := readText_quote name (0x3A :: bytes)
  rw [bytesOf_quote, readFields, List.cons_append, List.append_assoc, List.singleton_append,
    skipBlanks_cons (by decide), dropByte?, if_pos rfl]
  simp only [Option.bind_eq_bind, Option.bind_some, hquote, skipBlanks_cons (b := 0x3A) (by decide),
    dropByte?, if_true, h, skipBlanks_cons (b := 0x7D) (by decide)]
  rfl

mutual

/-- A value is read from its text, as far as the text goes. The fuel has to exceed the length of the
text twice over, since an item takes two steps: one into the list, one into the item. -/
theorem readValue_render : ∀ {v : Json} {levels : Nat}, v.plain levels = true →
    ∀ {fuel : Nat} {rest : List UInt8}, 2 * (bytesOf v.render).length ≤ fuel → Ends rest →
      readValue levels fuel (bytesOf v.render ++ rest) = some (v, rest)
  | null, levels, _, fuel + 1, rest, _, _ => by
    rw [readValue]
    rfl
  | bool true, levels, _, fuel + 1, rest, _, _ => by
    rw [readValue]
    rfl
  | bool false, levels, _, fuel + 1, rest, _, _ => by
    rw [readValue]
    rfl
  | string s, levels, _, fuel + 1, rest, _, _ => by
    rw [render, bytesOf_quote, List.cons_append, List.append_assoc, List.singleton_append,
      readValue_text, readText_quote]
    rfl
  | number n, levels, h, fuel + 1, rest, _, hrest => by
    obtain ⟨k, hk, rfl, hrender⟩ := exists_nat_of_plain h
    obtain ⟨numeral, hnumeral, hvalue⟩ := readNumeral_decimal hk hrest
    obtain ⟨b, bs, hbytes, hb⟩ := exists_head_decimal k
    rw [hrender]
    rw [hbytes, List.cons_append] at hnumeral ⊢
    rw [readValue_number hb, hnumeral, Option.map_some]
    simp only [hvalue]
    rfl
  | array [], levels + 1, _, fuel + 1, rest, _, _ => by
    rw [readValue]
    rfl
  | array (item :: items), levels + 1, h, fuel + 1, rest, hfuel, _ => by
    have hplain : plainItems (item :: items) levels = true := by simpa [plain] using h
    rw [bytesOf_render_array] at hfuel ⊢
    simp only [List.length_cons, List.length_append, List.length_nil] at hfuel
    -- The reader first looks whether the array ends at once: no item begins as its end does.
    obtain ⟨b, bs, hhead, hb⟩ := exists_head_renderItems hplain
    have hopen : dropByte? 0x5D (skipBlanks (bytesOf (renderItems (item :: items)) ++ 0x5D :: rest))
        = none := by
      rw [hhead, List.cons_append, skipBlanks_cons (fun hmem => hb (by simp_all))]
      exact if_neg fun heq => hb (by simp [heq])
    rw [List.cons_append, List.append_assoc, List.singleton_append, readValue_array hopen,
      readItems_render (item :: items) (List.cons_ne_nil _ _) hplain (by omega)]
    rfl
  | object [], levels + 1, _, fuel + 1, rest, _, _ => by
    rw [readValue]
    rfl
  | object (field :: fields), levels + 1, h, fuel + 1, rest, hfuel, _ => by
    have hplain : plainFields (field :: fields) levels = true := by simpa [plain] using h
    rw [bytesOf_render_object] at hfuel ⊢
    simp only [List.length_cons, List.length_append, List.length_nil] at hfuel
    obtain ⟨bs, hhead⟩ := exists_head_renderFields field fields
    have hopen : dropByte? 0x7D
        (skipBlanks (bytesOf (renderFields (field :: fields)) ++ 0x7D :: rest)) = none := by
      rw [hhead, List.cons_append, skipBlanks_cons (by decide)]
      rfl
    rw [List.cons_append, List.append_assoc, List.singleton_append, readValue_object hopen,
      readFields_render (field :: fields) (List.cons_ne_nil _ _) hplain (by omega)]
    rfl
  | v, levels, h, 0, rest, hfuel, _ => by
    obtain ⟨b, bs, hbytes, -⟩ := exists_head_render h
    simp [hbytes] at hfuel

theorem readItems_render : ∀ items : List Json, items ≠ [] → ∀ {levels : Nat},
    plainItems items levels = true → ∀ {fuel : Nat} {rest : List UInt8},
      2 * (bytesOf (renderItems items)).length < fuel →
        readItems levels fuel (bytesOf (renderItems items) ++ 0x5D :: rest) = some (items, rest)
  | [item], _, levels, h, fuel + 1, rest, hfuel => by
    rw [plainItems, Bool.and_eq_true] at h
    rw [renderItems] at hfuel ⊢
    exact readItems_last (readValue_render h.1 (by omega) (ends_cons (by decide) rest))
  | item :: next :: items, _, levels, h, fuel + 1, rest, hfuel => by
    rw [plainItems, Bool.and_eq_true] at h
    rw [bytesOf_renderItems] at hfuel ⊢
    simp only [List.length_cons, List.length_append] at hfuel
    rw [List.append_assoc, List.cons_append,
      readItems_cons (readValue_render h.1 (by omega) (ends_cons (by decide) _)),
      readItems_render (next :: items) (List.cons_ne_nil _ _) h.2 (by omega)]
    rfl

theorem readFields_render : ∀ fields : List (String × Json), fields ≠ [] → ∀ {levels : Nat},
    plainFields fields levels = true → ∀ {fuel : Nat} {rest : List UInt8},
      2 * (bytesOf (renderFields fields)).length < fuel →
        readFields levels fuel (bytesOf (renderFields fields) ++ 0x7D :: rest) =
          some (some fields, rest)
  | [(name, value)], _, levels, h, fuel + 1, rest, hfuel => by
    rw [plainFields, Bool.and_eq_true] at h
    rw [bytesOf_renderFields_singleton] at hfuel ⊢
    simp only [List.length_cons, List.length_append] at hfuel
    rw [List.append_assoc, List.cons_append]
    exact readFields_last (readValue_render h.1 (by omega) (ends_cons (by decide) rest))
  | (name, value) :: next :: fields, _, levels, h, fuel + 1, rest, hfuel => by
    rw [plainFields, Bool.and_eq_true] at h
    rw [bytesOf_renderFields] at hfuel ⊢
    simp only [List.length_cons, List.length_append] at hfuel
    rw [List.append_assoc, List.cons_append, List.append_assoc, List.cons_append,
      readFields_cons (readValue_render h.1 (by omega) (ends_cons (by decide) _)),
      readFields_render (next :: fields) (List.cons_ne_nil _ _) h.2 (by omega)]
    rfl

end

/-- The text of a value denotes the value. -/
theorem parse?_render {v : Json} (h : v.plain deepest = true) :
    parse? (bytesOf v.render) = some v := by
  have hnil : Ends [] := fun b hb => nomatch hb
  have hfuel : 2 * (bytesOf v.render).length ≤ 2 * (bytesOf v.render).length + 2 := by omega
  have hread := readValue_render h hfuel hnil
  rw [List.append_nil] at hread
  rw [parse?, hread]
  rfl

end Multidomain.Json
