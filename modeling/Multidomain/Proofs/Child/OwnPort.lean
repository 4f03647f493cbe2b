import Multidomain.Proofs.Child.VirtualDevice

/-!
# Ports that children carry

An address carries a port exactly when one stands behind its only colon (`split_eq_some_iff`). So of a
host with its port behind it the port is found exactly when the host has no colon of its own. Filling in
a port leaves alone just those texts that are such a host with its port in plain digits
(`authority_eq_self_iff`), and where the host has a colon, it puts a second port behind the first. This is
what comes of every version 6 address in brackets.
-/

namespace Multidomain.ChildAddress

/-! ### Hosts with a port -/

def withPort (hostText : String) (port : Nat) : String := hostText ++ ":" ++ Text.decimal port

variable {child hostText : String} {d port : Nat}

theorem toList_withPort (hostText : String) (port : Nat) :
    (withPort hostText port).toList = hostText.toList ++ ':' :: (Text.decimal port).toList := by
  rw [withPort, String.toList_append, String.toList_append, List.append_assoc]
  rfl

/-- The host stands before the last colon. -/
theorem withPort_inj_left {other : String} {otherPort : Nat}
    (h : withPort hostText port = withPort other otherPort) : hostText = other := by
  have hchars := congrArg String.toList h
  rw [toList_withPort, toList_withPort] at hchars
  exact String.toList_inj.1 (Text.append_cons_inj_of_last (Text.colon_notMem_decimal port)
    (Text.colon_notMem_decimal otherPort) hchars).1

theorem withPort_ne_self (hostText : String) (port : Nat) : withPort hostText port ≠ hostText := by
  intro h
  have hlength := congrArg (List.length ∘ String.toList) h
  simp only [Function.comp_apply, toList_withPort, List.length_append, List.length_cons] at hlength
  omega

theorem authority_eq (d : Nat) (child : String) :
    authority d child = withPort (host child) ((port? child).getD d) := rfl

/-! ### Addresses that carry a port -/

theorem split_eq_some_iff : split child = (hostText, some port) ↔ ':' ∉ hostText.toList ∧
    ∃ text, child.toList = hostText.toList ++ ':' :: text
      ∧ Text.readNumber 10 65535 text = some port := by
  constructor
  · intro h
    unfold split at h
    split at h
    · next before after hparts =>
      split at h
      · next n hread =>
        obtain ⟨rfl, hport⟩ := Prod.mk.inj h
        obtain rfl := Option.some.inj hport
        obtain ⟨hbefore, -, hchild⟩ := Text.splitAt_eq_pair_iff.1 hparts
        rw [String.toList_ofList]
        exact ⟨hbefore, after, hchild, hread⟩
      · cases h
    · cases h
  · rintro ⟨hcolon, text, hchild, hread⟩
    have htext : ':' ∉ text := Text.notMem_of_readNumber (by decide) (by decide) hread
    have hparts : Text.splitAt ':' child.toList = [hostText.toList, text] :=
      Text.splitAt_eq_pair_iff.2 ⟨hcolon, htext, hchild⟩
    simp only [split, hparts, hread, String.ofList_toList]

/-- An address without a port is all host. -/
theorem split_eq_of_port?_eq_none (h : port? child = none) : split child = (child, none) := by
  unfold port? at h
  unfold split at h ⊢
  split
  · next hparts =>
    rw [hparts] at h
    split
    · next hread => simp [hread] at h
    · rfl
  · rfl

/-- The port that an address carries stands behind its only colon. -/
theorem spelling_of_port? (h : port? child = some port) : ':' ∉ (host child).toList ∧
    ∃ text, child.toList = (host child).toList ++ ':' :: text
      ∧ Text.readNumber 10 65535 text = some port :=
  split_eq_some_iff.1 (Prod.ext rfl h)

theorem port?_le (h : port? child = some port) : port ≤ 65535 := by
  obtain ⟨-, text, -, hread⟩ := spelling_of_port? h
  exact Text.le_of_readNumber hread

theorem port?_eq_none_of_no_colon (hcolon : ':' ∉ child.toList) : port? child = none := by
  refine Option.eq_none_iff_forall_ne_some.2 fun n hport => hcolon ?_
  obtain ⟨-, text, hchild, -⟩ := spelling_of_port? hport
  rw [hchild]
  exact List.mem_append_right _ List.mem_cons_self

/-- Whatever stands in brackets carries no port: there is a bracket where the port would end. -/
theorem port?_bracketed {cs : List Char} (h : child.toList = '[' :: cs ++ [']']) :
    port? child = none := by
  refine Option.eq_none_iff_forall_ne_some.2 fun n hport => ?_
  obtain ⟨-, text, hchild, hread⟩ := spelling_of_port? hport
  have hbracket : ']' ∉ text := Text.notMem_of_readNumber (by decide) (by decide) hread
  cases text using List.reverseRecOn with
  | nil => cases hread
  | append_singleton front last =>
    rw [h, ← List.cons_append, ← List.append_assoc] at hchild
    obtain rfl : ']' = last := List.singleton_inj.1 (List.append_inj_right' hchild rfl)
    exact hbracket (by simp)

/-- A host without a colon is told apart from the port behind it. -/
theorem split_withPort (hcolon : ':' ∉ hostText.toList) (hport : port ≤ 65535) :
    split (withPort hostText port) = (hostText, some port) :=
  split_eq_some_iff.2 ⟨hcolon, _, toList_withPort hostText port, Text.readNumber_decimal hport⟩

/-- The port behind a host with a colon is not found. -/
theorem port?_withPort_of_colon (hcolon : ':' ∈ hostText.toList) :
    port? (withPort hostText port) = none := by
  refine Option.eq_none_iff_forall_ne_some.2 fun n hport => ?_
  obtain ⟨hother, text, hchars, hread⟩ := spelling_of_port? hport
  have htext : ':' ∉ text := Text.notMem_of_readNumber (by decide) (by decide) hread
  rw [toList_withPort] at hchars
  obtain ⟨hhosts, -⟩ := Text.append_cons_inj_of_last (Text.colon_notMem_decimal port) htext hchars
  exact hother (hhosts ▸ hcolon)

/-! ### Filling in a port -/

theorem host_of_port?_eq_none (h : port? child = none) : host child = child :=
  congrArg Prod.fst (split_eq_of_port?_eq_none h)

theorem host_withPort (hcolon : ':' ∉ hostText.toList) (hport : port ≤ 65535) :
    host (withPort hostText port) = hostText :=
  congrArg Prod.fst (split_withPort hcolon hport)

theorem authority_of_port?_eq_none (h : port? child = none) :
    authority d child = withPort child d := by
  rw [authority_eq, h, host_of_port?_eq_none h, Option.getD_none]

theorem authority_withPort (hcolon : ':' ∉ hostText.toList) (hport : port ≤ 65535) :
    authority d (withPort hostText port) = withPort hostText port := by
  have hfound : port? (withPort hostText port) = some port :=
    congrArg Prod.snd (split_withPort hcolon hport)
  rw [authority_eq, hfound, host_withPort hcolon hport, Option.getD_some]

/-- A second port is put behind the one that is not found. -/
theorem authority_withPort_of_colon (hcolon : ':' ∈ hostText.toList) :
    authority d (withPort hostText port) = withPort (withPort hostText port) d :=
  authority_of_port?_eq_none (port?_withPort_of_colon hcolon)

/-- The addresses that nothing is filled in for: a host without a colon, and its port in plain digits. -/
theorem authority_eq_self_iff (d : Nat) (child : String) : authority d child = child ↔
    ∃ hostText port, port ≤ 65535 ∧ ':' ∉ hostText.toList ∧ child = withPort hostText port := by
  constructor
  · intro h
    cases hport : port? child with
    | none =>
      rw [authority_of_port?_eq_none hport] at h
      exact absurd h (withPort_ne_self child d)
    | some n =>
      have hcolon := (spelling_of_port? hport).1
      rw [authority_eq, hport, Option.getD_some] at h
      exact ⟨host child, n, port?_le hport, hcolon, h.symm⟩
  · rintro ⟨hostText, port, hport, hcolon, rfl⟩
    exact authority_withPort hcolon hport

/-- Filling in a port once more changes nothing exactly when the host has no colon. -/
theorem authority_authority_iff (hd : d ≤ 65535) (child : String) :
    authority d (authority d child) = authority d child ↔ ':' ∉ (host child).toList := by
  have hfilled : (port? child).getD d ≤ 65535 := by
    cases hport : port? child with
    | none => exact hd
    | some n => exact port?_le hport
  rw [authority_eq_self_iff, authority_eq]
  constructor
  · rintro ⟨hostText, port, -, hcolon, heq⟩
    rwa [withPort_inj_left heq]
  · exact fun hcolon => ⟨host child, _, hfilled, hcolon, rfl⟩

/-! ### Hosts whose port is honoured -/

/-- The host is told apart from the port behind it and keeps that port, it has the default port where
there is none, and what has a port gets no other one. -/
structure HonoursPort (d port : Nat) (hostText : String) : Prop where
  split_eq : split (withPort hostText port) = (hostText, some port)
  authority_eq : authority d (withPort hostText port) = withPort hostText port
  authority_bare : authority d hostText = withPort hostText d
  authority_again : ∀ child ∈ [hostText, withPort hostText port],
    authority d (authority d child) = authority d child

theorem honoursPort_of_no_colon (hd : d ≤ 65535) (hport : port ≤ 65535)
    (hcolon : ':' ∉ hostText.toList) : HonoursPort d port hostText := by
  have hbare := port?_eq_none_of_no_colon hcolon
  refine ⟨split_withPort hcolon hport, authority_withPort hcolon hport,
    authority_of_port?_eq_none hbare, ?_⟩
  intro child hchild
  rw [authority_authority_iff hd]
  obtain rfl | hchild := List.mem_cons.1 hchild
  · rwa [host_of_port?_eq_none hbare]
  · rwa [List.mem_singleton.1 hchild, host_withPort hcolon hport]

/-- A version 6 address in brackets. -/
def IsLiteral (hostText : String) : Prop :=
  ∃ cs a, Ip6.ofChars? cs = some a ∧ hostText.toList = '[' :: cs ++ [']']

theorem IsLiteral.colon_mem (h : IsLiteral hostText) : ':' ∈ hostText.toList := by
  obtain ⟨cs, a, ha, hchars⟩ := h
  rw [hchars]
  exact List.mem_append_left _ (List.mem_cons_of_mem _ (Ip6.colon_mem_of_ofChars? ha))

theorem IsLiteral.authority_bare (h : IsLiteral hostText) :
    authority d hostText = withPort hostText d := by
  obtain ⟨cs, a, -, hchars⟩ := h
  exact authority_of_port?_eq_none (port?_bracketed hchars)

/-- **Which hosts have their own port honoured.** Exactly those without a colon, so every name and every
version 4 address. A version 6 address in brackets has the default port filled in where it carries none;
but the port behind it is not found, and whether it was written or filled in, a second one is put behind
it. Filling in a port once more changes nothing at just those addresses whose host has no colon. -/
theorem honoursPort_iff (d port : UInt16) (hostText : String) :
    (HonoursPort d.toNat port.toNat hostText ↔ ':' ∉ hostText.toList)
      ∧ (IsLiteral hostText →
          ¬ HonoursPort d.toNat port.toNat hostText
            ∧ authority d.toNat hostText = withPort hostText d.toNat
            ∧ split (withPort hostText port.toNat) = (withPort hostText port.toNat, none)
            ∧ authority d.toNat (withPort hostText port.toNat)
                = withPort (withPort hostText port.toNat) d.toNat
            ∧ authority d.toNat (authority d.toNat hostText)
                = withPort (withPort hostText d.toNat) d.toNat)
      ∧ ∀ child, authority d.toNat (authority d.toNat child) = authority d.toNat child ↔
          ':' ∉ (host child).toList := by
  have hd : d.toNat ≤ 65535 := Nat.le_of_lt_succ d.toNat_lt
  have hport : port.toNat ≤ 65535 := Nat.le_of_lt_succ port.toNat_lt
  have hiff : HonoursPort d.toNat port.toNat hostText ↔ ':' ∉ hostText.toList :=
    ⟨fun h => (split_eq_some_iff.1 h.split_eq).1, honoursPort_of_no_colon hd hport⟩
  refine ⟨hiff, fun hliteral => ?_, authority_authority_iff hd⟩
  have hcolon := hliteral.colon_mem
  have hbare : authority d.toNat hostText = withPort hostText d.toNat := hliteral.authority_bare
  refine ⟨fun h => hiff.1 h hcolon, hbare,
    split_eq_of_port?_eq_none (port?_withPort_of_colon hcolon), authority_withPort_of_colon hcolon, ?_⟩
  rw [hbare, authority_withPort_of_colon hcolon]

theorem honoursPort_iff_eitherVersion :
    HonoursPort 8888 9000 "10.0.0.2" ∧ IsLiteral "[2001:db8::2]"
      ∧ ¬ HonoursPort 8888 9000 "[2001:db8::2]"
      ∧ authority 8888 "[2001:db8::2]" = "[2001:db8::2]:8888"
      ∧ authority 8888 "[2001:db8::2]:9000" = "[2001:db8::2]:9000:8888" := by
  have hliteral : IsLiteral "[2001:db8::2]" :=
    ⟨"2001:db8::2".toList, ⟨[0x2001, 0xdb8, 0, 0, 0, 0, 0, 2], rfl⟩, by decide +kernel,
      by decide +kernel⟩
  obtain ⟨haddress, -⟩ := honoursPort_iff 8888 9000 "10.0.0.2"
  obtain ⟨-, hrest, -⟩ := honoursPort_iff 8888 9000 "[2001:db8::2]"
  obtain ⟨hnot, hbare, -, htwice, -⟩ := hrest hliteral
  exact ⟨haddress.2 (by decide +kernel), hliteral, hnot, hbare, htwice⟩

/-- The loopback address in brackets with a port behind it is taken for a host without one. -/
theorem second_port_behind_literal :
    IsLiteral "[::1]" ∧ ¬ HonoursPort 8888 80 "[::1]"
      ∧ split (withPort "[::1]" 80) = ("[::1]:80", none)
      ∧ authority 8888 (withPort "[::1]" 80) = "[::1]:80:8888"
      ∧ authority 8888 (authority 8888 "[::1]") = "[::1]:8888:8888" := by
  have hliteral : IsLiteral "[::1]" :=
    ⟨"::1".toList, ⟨[0, 0, 0, 0, 0, 0, 0, 1], rfl⟩, by decide +kernel, by decide +kernel⟩
  have hsplit : split (withPort "[::1]" 80) = ("[::1]:80", none) := by decide +kernel
  refine ⟨hliteral, fun h => ?_, hsplit, by decide +kernel, by decide +kernel⟩
  have hfound := hsplit.symm.trans h.split_eq
  cases congrArg Prod.snd hfound

end Multidomain.ChildAddress
