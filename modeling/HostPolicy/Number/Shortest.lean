import HostPolicy.Text.Digits

/-!
Binary64 numbers as decimals: the fewest digits that read back as the number, and of those the
nearest to it.

A number is `mantissa * 2 ^ exponent`, and the numbers that read back as it lie between the
midpoints to its neighbours, these included if the mantissa is even. On the grid of a power of ten
it is enough to look at the two points next to the number.
-/

namespace HostPolicy.Number

/-- The size of a binary64 number, without its sign. -/
structure Binary where
  mantissa : Nat
  exponent : Int
  deriving DecidableEq, Repr

def isNegative (bits : UInt64) : Bool :=
  bits.toNat / Nat.pow 2 63 == 1

def Binary.ofBits (bits : UInt64) : Binary :=
  let fraction : Nat := bits.toNat % Nat.pow 2 52
  let biased : Nat := bits.toNat / Nat.pow 2 52 % Nat.pow 2 11
  if biased = 0 then ⟨fraction, -1074⟩ else ⟨Nat.pow 2 52 + fraction, (biased : Int) - 1075⟩

/-- A number as a quotient, with both midpoints over the same denominator. -/
structure Surroundings where
  low : Nat
  value : Nat
  high : Nat
  denominator : Nat
  closed : Bool
  deriving DecidableEq, Repr

/-- The neighbour below is half as far away where the exponent changes. -/
def Binary.surroundings (b : Binary) : Surroundings :=
  let scale := Nat.pow 2 b.exponent.toNat
  let below := if b.mantissa = Nat.pow 2 52 ∧ -1074 < b.exponent then 1 else 2
  { low := (4 * b.mantissa - below) * scale
    value := 4 * b.mantissa * scale
    high := (4 * b.mantissa + 2) * scale
    denominator := 4 * Nat.pow 2 (-b.exponent).toNat
    closed := b.mantissa % 2 == 0 }

/-- A decimal: `digits * 10 ^ exponent`. -/
structure Decimal where
  digits : Nat
  exponent : Int
  deriving DecidableEq, Repr

namespace Surroundings

/-- Whether a multiple of a power of ten reads back as the number. -/
def holds (s : Surroundings) (d : Decimal) : Bool :=
  let point := d.digits * Nat.pow 10 d.exponent.toNat * s.denominator
  let unit := Nat.pow 10 (-d.exponent).toNat
  if s.closed then decide (s.low * unit ≤ point) && decide (point ≤ s.high * unit)
  else decide (s.low * unit < point) && decide (point < s.high * unit)

/-- The distance of a decimal from the number, in units that do not depend on its digits. -/
def distance (s : Surroundings) (d : Decimal) : Nat :=
  let point := d.digits * Nat.pow 10 d.exponent.toNat * s.denominator
  let value := s.value * Nat.pow 10 (-d.exponent).toNat
  (point - value) + (value - point)

/-- The points of the grid of `10 ^ exponent` on both sides of the number, the nearer first, and
of two that are equally near the even one. -/
def neighbours (s : Surroundings) (exponent : Int) : List Decimal :=
  let below := s.value * Nat.pow 10 (-exponent).toNat / (s.denominator * Nat.pow 10 exponent.toNat)
  let a : Decimal := ⟨below, exponent⟩
  let b : Decimal := ⟨below + 1, exponent⟩
  if s.distance b < s.distance a ∨ s.distance b = s.distance a ∧ below % 2 = 1 then [b, a]
  else [a, b]

/-- The place of the first digit of the number: `n` if it is from `10 ^ n` to below
`10 ^ (n + 1)`. -/
def magnitude (s : Surroundings) : Int :=
  if s.denominator ≤ s.value then (Text.decimal (s.value / s.denominator)).length - 1
  else
    let places := ((List.range 400).find? fun p => s.denominator ≤ s.value * Nat.pow 10 p).getD 400
    Int.negOfNat places

/-- Seventeen digits are always enough. -/
def shortest (s : Surroundings) : Decimal :=
  let grids := (List.range 17).map fun (n : Nat) => s.magnitude - n
  ((grids.flatMap s.neighbours).find? s.holds).getD ⟨0, 0⟩

end Surroundings

end HostPolicy.Number
