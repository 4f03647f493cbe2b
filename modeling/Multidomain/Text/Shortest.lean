/-!
# Shortest decimals

The fewest decimal digits that identify a double. A finite double is `m · 2^q`; the reals that round
to it form an interval, closed exactly when `m` is even. For one digit, two digits and so on, the
two neighbours of the value on the decimal grid of that many digits are tried, and the first grid
with a neighbour in the interval wins, the nearer of two. Everything is computed in natural numbers.
-/

namespace Multidomain.Text

/-- A positive double as a fraction, with the two ends of the interval of reals that round to it on
the same denominator. -/
structure DoubleInterval where
  low : Nat
  value : Nat
  high : Nat
  denominator : Nat
  /-- Whether the ends round to the double too. -/
  closed : Bool

/-- The interval of the finite double with these bits, its sign ignored. -/
def DoubleInterval.ofBits (bits : UInt64) : DoubleInterval :=
  let fraction := bits.toNat % Nat.pow 2 52
  let biased := bits.toNat / Nat.pow 2 52 % 2048
  let m := if biased = 0 then fraction else fraction + Nat.pow 2 52
  let power := if biased = 0 then 1 else biased
  let below := if fraction = 0 ∧ 1 < biased then 1 else 2
  -- the value is `4 m · 2^(power - 1077)`
  let scale := Nat.pow 2 (power - 1077)
  { low := (4 * m - below) * scale
    value := 4 * m * scale
    high := (4 * m + 2) * scale
    denominator := Nat.pow 2 (1077 - power)
    closed := m % 2 = 0 }

/-- Whether `c · 10^k` lies in the interval, `k` given as the difference of two exponents. -/
def DoubleInterval.holds (i : DoubleInterval) (c up down : Nat) : Bool :=
  let x := c * Nat.pow 10 up * i.denominator
  let low := i.low * Nat.pow 10 down
  let high := i.high * Nat.pow 10 down
  if i.closed then low ≤ x && x ≤ high else low < x && x < high

/-- The exponent of the leading decimal digit of `n / d`, for positive `n`; `fuel` bounds how far
below one it may lie. -/
def leadingExponent (n d : Nat) : Nat → Int
  | 0 => 0
  | fuel + 1 =>
    if d ≤ n then ((Nat.toDigits 10 (n / d)).length : Int) - 1
    else leadingExponent (n * 10) d fuel - 1

/-- Of the two neighbours of the value on the grid of step `10^k`, the nearer one that identifies
the double. -/
def DoubleInterval.onGrid? (i : DoubleInterval) (k : Int) : Option Nat :=
  let up := k.toNat
  let down := (-k).toNat
  let numerator := i.value * Nat.pow 10 down
  let denominator := i.denominator * Nat.pow 10 up
  let c := numerator / denominator
  let rest := numerator % denominator
  match i.holds c up down, i.holds (c + 1) up down with
  | true, true =>
    if 2 * rest < denominator ∨ (2 * rest = denominator ∧ c % 2 = 0) then some c else some (c + 1)
  | true, false => some c
  | false, true => some (c + 1)
  | false, false => none

/-- The first grid, from `digits` digits on, that identifies the double. A neighbour that has one
digit more than its grid is a power of ten, and is put on the next coarser grid. -/
def DoubleInterval.search (i : DoubleInterval) (lead : Int) : Nat → Nat → Nat × Int
  | _, 0 => (0, 0)
  | digits, fuel + 1 =>
    let k := lead - (digits : Int) + 1
    match i.onGrid? k with
    | some c => if c = Nat.pow 10 digits then (c / 10, k + 1) else (c, k)
    | none => search i lead (digits + 1) fuel

/-- Digits and exponent `(c, k)` of the shortest decimal `c · 10^k` that identifies a positive
finite double. -/
def shortest (bits : UInt64) : Nat × Int :=
  let i := DoubleInterval.ofBits bits
  if i.value = 0 then (0, 0)
  else i.search (leadingExponent i.value i.denominator 400) 1 18

end Multidomain.Text
