import Multidomain.Proofs.Child.HostPart

/-!
# Which children share a virtual device

A virtual device is named after the address of its child, and two names are equal for one of two reasons.
Either the hosts come out alike and the addresses carry the same port, or both carry none. Or one address
carries a port, the other carries none, and the second host reads like the first with the port behind it.
So the name is not the endpoint: whether the port is written counts, and characters that are replaced are
not told apart. Among addresses that all carry a port, or all carry none, and whose hosts are version 4
addresses, or names of letters, digits and hyphens, it is.
-/

namespace Multidomain.ChildAddress

/-! ### Addresses with and without a port -/

def host (child : String) : String := (split child).1

def port? (child : String) : Option Nat := (split child).2

/-- What a name has of the port. -/
def suffix : Option Nat → String
  | some n => "p" ++ Text.decimal n
  | none => ""

theorem toList_suffix (n : Nat) : (suffix (some n)).toList = 'p' :: Nat.toDigits 10 n := by
  show ("p" ++ Text.decimal n).toList = 'p' :: Nat.toDigits 10 n
  rw [String.toList_append, Text.toList_decimal]
  rfl

theorem virtualDevice_eq_iff (a b : String) : virtualDevice a = virtualDevice b ↔
    hostPart (host a) ++ suffix (port? a) = hostPart (host b) ++ suffix (port? b) := by
  have hname : ∀ child, virtualDevice child = .qualified DeviceId.implicitScheme
      (hostPart (host child) ++ suffix (port? child)) := fun _ => rfl
  rw [hname, hname]
  constructor
  · exact fun h => (String.append_right_inj _).1 (congrArg DeviceId.text h)
  · exact congrArg _

/-- Only the first address carries a port, and the second host reads as the first with that port behind
it. -/
def Mistaken (a b : String) : Prop :=
  ∃ n, port? a = some n ∧ port? b = none ∧ hostPart (host b) = hostPart (host a) ++ suffix (some n)

/-- The port that both names end with is told by its digits, which have no letter in them. -/
theorem append_suffix_inj {x y : String} {m n : Nat} :
    x ++ suffix (some m) = y ++ suffix (some n) ↔ x = y ∧ m = n := by
  have hlast : ∀ n, 'p' ∉ Nat.toDigits 10 n := Text.notMem_toDigits_of_not_digit (by decide)
  constructor
  · intro h
    have hchars := congrArg String.toList h
    rw [String.toList_append, String.toList_append, toList_suffix, toList_suffix] at hchars
    obtain ⟨hhosts, hports⟩ := Text.append_cons_inj_of_last (hlast m) (hlast n) hchars
    exact ⟨String.toList_inj.1 hhosts, Text.toDigits_inj hports⟩
  · rintro ⟨rfl, rfl⟩
    rfl

/-- Two names are equal for one of three reasons. -/
theorem virtualDevice_eq_iff_cases (a b : String) : virtualDevice a = virtualDevice b ↔
    HostsAlike (host a) (host b) ∧ port? a = port? b ∨ Mistaken a b ∨ Mistaken b a := by
  rw [virtualDevice_eq_iff, ← hostPart_eq_iff, Mistaken, Mistaken]
  have hnone : suffix none = "" := rfl
  cases port? a with
  | none =>
    cases port? b with
    | none => simp [hnone]
    | some n => simp [hnone]
  | some m =>
    cases port? b with
    | none => simp [hnone, eq_comm]
    | some n => simp [append_suffix_inj]

/-! ### Endpoints -/

/-- The addresses name the same endpoint, but for the case of letters. -/
def SameEndpoint (defaultPort : Nat) (a b : String) : Prop :=
  (authority defaultPort a).toLower = (authority defaultPort b).toLower

instance (defaultPort : Nat) (a b : String) : Decidable (SameEndpoint defaultPort a b) :=
  inferInstanceAs (Decidable ((authority defaultPort a).toLower = (authority defaultPort b).toLower))

theorem sameEndpoint_iff {d : Nat} {a b : String} : SameEndpoint d a b ↔
    (host a).toLower = (host b).toLower ∧ (port? a).getD d = (port? b).getD d := by
  have htext : ∀ child, (authority d child).toLower.toList
      = (host child).toLower.toList ++ ':' :: Nat.toDigits 10 ((port? child).getD d) := by
    intro child
    have hdigits : (Nat.toDigits 10 ((port? child).getD d)).map Char.toLower
        = Nat.toDigits 10 ((port? child).getD d) := by
      apply Text.map_toLower_of_lt
      intro c hc
      have hbounds := Text.digit_bounds (Nat.isDigit_of_mem_toDigits (by decide) (by decide) hc)
      omega
    show ((host child ++ ":" ++ Text.decimal ((port? child).getD d)).map Char.toLower).toList
      = ((host child).map Char.toLower).toList ++ ':' :: Nat.toDigits 10 ((port? child).getD d)
    rw [String.toList_map, String.toList_append, String.toList_append, Text.toList_decimal,
      List.map_append, List.map_append, hdigits, String.toList_map, List.append_assoc]
    rfl
  have hlast : ∀ n, ':' ∉ Nat.toDigits 10 n := Text.notMem_toDigits_of_not_digit (by decide)
  rw [SameEndpoint, ← String.toList_inj, htext, htext]
  constructor
  · intro h
    obtain ⟨hhosts, hports⟩ := Text.append_cons_inj_of_last (hlast _) (hlast _) h
    exact ⟨String.toList_inj.1 hhosts, Text.toDigits_inj hports⟩
  · rintro ⟨hhosts, hports⟩
    rw [hhosts, hports]

variable {d : Nat} {a b : String}

/-- Addresses of one endpoint have one name, unless one of them leaves the port out. -/
theorem virtualDevice_eq_iff_of_sameEndpoint (h : SameEndpoint d a b) :
    virtualDevice a = virtualDevice b ↔ (port? a).isSome = (port? b).isSome := by
  obtain ⟨hhosts, hports⟩ := sameEndpoint_iff.1 h
  have hparts := hostPart_congr hhosts
  rw [virtualDevice_eq_iff, hparts, String.append_right_inj]
  cases hpa : port? a with
  | none => cases port? b <;> simp [suffix]
  | some m =>
    cases hpb : port? b with
    | none => simp [suffix]
    | some n =>
      rw [hpa, hpb] at hports
      obtain rfl : m = n := hports
      simp

/-- Hosts of which the name keeps all but the case: both are version 4 addresses, or both are made of
letters, digits and hyphens. -/
def Regular (h k : String) : Prop :=
  (∃ x y, Ip4.parse? h = some x ∧ Ip4.parse? k = some y)
    ∨ ∀ c ∈ h.toList ++ k.toList, isAsciiAlphanumeric c = true ∨ c = '-'

theorem toLower_eq_of_regular {h k : String} (hregular : Regular h k) (halike : HostsAlike h k) :
    h.toLower = k.toLower := by
  have hdot : ∀ {s : String} {a : Ip4}, Ip4.parse? s = some a →
      ¬ ∀ c ∈ s.toList, isAsciiAlphanumeric c = true ∨ c = '-' := by
    intro s a hs hplain
    have hmem : '.' ∈ s.toList := by
      rw [toList_of_address hs]
      exact a.dot_mem_toChars
    exact absurd (hplain _ hmem) (by decide)
  cases halike with
  | addresses hh hk => rw [eq_of_address hh hk]
  | names hh hk halike =>
    obtain ⟨x, -, hx, -⟩ | hplain := hregular
    · rw [hh] at hx
      cases hx
    · have hkept : ∀ cs : List Char, (∀ c ∈ cs, isAsciiAlphanumeric c = true ∨ c = '-') →
          cs.map plain = cs.map Char.toLower := by
        intro cs hcs
        apply List.map_congr_left
        intro c hc
        obtain halphanumeric | rfl := hcs c hc
        · exact if_pos halphanumeric
        · decide
      have hchars := map_plain_eq_iff.2 halike
      rw [hkept _ fun c hc => hplain c (List.mem_append_left _ hc),
        hkept _ fun c hc => hplain c (List.mem_append_right _ hc)] at hchars
      rw [← String.toList_inj]
      exact String.toList_map.trans (hchars.trans String.toList_map.symm)
  | addressAndName hh hk hname =>
    obtain ⟨-, y, -, hy⟩ | hplain := hregular
    · rw [hk] at hy
      cases hy
    · exact absurd (fun c hc => hplain c (List.mem_append_left _ hc)) (hdot hh)
  | nameAndAddress hh hk hname =>
    obtain ⟨x, -, hx, -⟩ | hplain := hregular
    · rw [hh] at hx
      cases hx
    · exact absurd (fun c hc => hplain c (List.mem_append_right _ hc)) (hdot hk)

/-- **When two children share a virtual device.** Exactly when their hosts come out alike and they carry
the same port, or both none; or when one host reads as the other with its port behind it. So addresses of
one endpoint share a device exactly when both carry a port or neither does. Among such addresses whose
hosts are both version 4 addresses, or both made of letters, digits and hyphens, sharing a device is being
one endpoint. -/
theorem share_virtualDevice_iff (defaultPort : Nat) (a b : String) :
    (virtualDevice a = virtualDevice b ↔
        HostsAlike (host a) (host b) ∧ port? a = port? b ∨ Mistaken a b ∨ Mistaken b a)
      ∧ (SameEndpoint defaultPort a b →
          (virtualDevice a = virtualDevice b ↔ (port? a).isSome = (port? b).isSome))
      ∧ ((port? a).isSome = (port? b).isSome → Regular (host a) (host b) →
          (virtualDevice a = virtualDevice b ↔ SameEndpoint defaultPort a b)) := by
  refine ⟨virtualDevice_eq_iff_cases a b, virtualDevice_eq_iff_of_sameEndpoint, ?_⟩
  intro hcarry hregular
  constructor
  · intro heq
    obtain ⟨halike, hports⟩ | ⟨n, ha, hb, -⟩ | ⟨n, hb, ha, -⟩ := (virtualDevice_eq_iff_cases a b).1 heq
    · exact sameEndpoint_iff.2 ⟨toLower_eq_of_regular hregular halike, by rw [hports]⟩
    · rw [ha, hb] at hcarry
      cases hcarry
    · rw [ha, hb] at hcarry
      cases hcarry
  · exact fun hsame => (virtualDevice_eq_iff_of_sameEndpoint hsame).2 hcarry

theorem share_virtualDevice_leaf :
    SameEndpoint 8181 "Leaf-7:8080" "leaf-7:08080"
      ∧ (port? "Leaf-7:8080").isSome = (port? "leaf-7:08080").isSome
      ∧ Regular (host "Leaf-7:8080") (host "leaf-7:08080")
      ∧ virtualDevice "Leaf-7:8080" = virtualDevice "leaf-7:08080" := by
  have hsame : SameEndpoint 8181 "Leaf-7:8080" "leaf-7:08080" := by decide +kernel
  have hcarry : (port? "Leaf-7:8080").isSome = (port? "leaf-7:08080").isSome := by decide +kernel
  have hplain : ((host "Leaf-7:8080").toList ++ (host "leaf-7:08080").toList).all
      (fun c => isAsciiAlphanumeric c || c == '-') = true := by decide +kernel
  have hregular : Regular (host "Leaf-7:8080") (host "leaf-7:08080") :=
    .inr fun c hc => by simpa using List.all_eq_true.1 hplain c hc
  obtain ⟨-, hone, hshare⟩ := share_virtualDevice_iff 8181 "Leaf-7:8080" "leaf-7:08080"
  have heq := (hone hsame).2 hcarry
  exact ⟨(hshare hcarry hregular).1 heq, hcarry, hregular, heq⟩

/-- One endpoint with two virtual devices, and two endpoints with one. -/
theorem virtualDevice_not_endpoint :
    SameEndpoint 8888 "10.0.0.2" "10.0.0.2:8888"
      ∧ virtualDevice "10.0.0.2" ≠ virtualDevice "10.0.0.2:8888"
      ∧ virtualDevice "a.b" = virtualDevice "a-b" ∧ ¬ SameEndpoint 8888 "a.b" "a-b" := by
  decide +kernel

end Multidomain.ChildAddress
