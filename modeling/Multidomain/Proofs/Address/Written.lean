import Multidomain.Address.Ethernet
import Multidomain.Proofs.Text.Numeral

/-!
# Addresses that were written

The reader of an Ethernet address and the reader of a VLAN each accept what the writer makes, and give
back what was written. Both readers take blanks off first, which the written forms do not have.
-/

namespace Multidomain

namespace Mac

theorem mem_toChars {m : Mac} {c : Char} (h : c ∈ m.toChars) :
    c = ':' ∨ ∃ n < 16, c = Text.hexDigit n := by
  obtain rfl | ⟨part, hpart, hc⟩ := Text.mem_intercalate h
  · exact .inl rfl
  · obtain ⟨octet, -, rfl⟩ := List.mem_map.1 hpart
    exact .inr (Text.mem_hexPair hc)

theorem octet?_hexPair (octet : UInt8) : octet? (Text.hexPair octet) = some octet := by
  have hlength : (Text.hexPair octet).length = 2 := rfl
  rw [octet?, if_pos hlength, Text.readNumber_hexPair, Option.map_some, UInt8.ofNat_toNat]

theorem ofChars?_toChars (m : Mac) : ofChars? m.toChars = some m := by
  have hcolon : ∀ part ∈ m.octets.map Text.hexPair, ':' ∉ part := by
    intro part hpart hmem
    obtain ⟨octet, -, rfl⟩ := List.mem_map.1 hpart
    obtain ⟨n, hn, heq⟩ := Text.mem_hexPair hmem
    exact (Text.hexDigit_plain n hn).2 heq.symm
  have hsome : m.octets.map Text.hexPair ≠ [] := by
    intro hnil
    have hlength := m.length_octets
    simp [List.map_eq_nil_iff.1 hnil] at hlength
  have hoctets : (m.octets.map Text.hexPair).mapM octet? = some m.octets :=
    Text.mapM_map_eq_some octet?_hexPair m.octets
  rw [ofChars?, toChars, Text.splitAt_intercalate hsome hcolon, hoctets, Option.bind_some,
    ofOctets?, dif_pos m.length_octets]

/-- An Ethernet address is read back from its written form. -/
theorem parse_toString (m : Mac) : parse (toString m) = .ok m := by
  have hblank : ∀ c ∈ m.toChars, Text.isBlank c = false := by
    intro c hc
    obtain rfl | ⟨n, hn, rfl⟩ := mem_toChars hc
    · decide
    · exact (Text.hexDigit_plain n hn).1
  have htext : (toString m).toList = m.toChars := String.toList_ofList
  rw [parse, htext, Text.trimChars_of_no_blank hblank, ofChars?_toChars]

end Mac

namespace Vlan

theorem toLower_decimal_ne_none (n : Nat) : (Text.decimal n).toLower ≠ "none" := by
  intro heq
  have hlow : ∀ c ∈ (Text.decimal n).toList, c.toNat < 65 := by
    intro c hc
    have hbounds := Text.digit_bounds (Text.isDigit_of_mem_decimal hc)
    omega
  have hletters : (Text.decimal n).toList = ['n', 'o', 'n', 'e'] := by
    rw [← Text.map_toLower_of_lt hlow, ← String.toList_map]
    exact congrArg String.toList heq
  have hn : 'n' ∈ (Text.decimal n).toList := by simp [hletters]
  exact absurd (Text.isDigit_of_mem_decimal hn) (by decide)

/-- A VLAN is read back from its written form. -/
theorem parse_toString (v : Vlan) : parse (toString v) = .ok v := by
  cases v with
  | untagged =>
    have hword : (Text.trim "None").toLower = "none" := by decide +kernel
    exact if_pos hword
  | tagged n =>
    have htext : toString (tagged n) = Text.decimal n.val := rfl
    have hread : Text.readDecimal 65535 (Text.decimal n.val) = some n.val :=
      Text.readDecimal_decimal (by omega)
    rw [parse, htext, Text.trim_decimal]
    simp [toLower_decimal_ne_none, hread, ofNat]

end Vlan

end Multidomain
