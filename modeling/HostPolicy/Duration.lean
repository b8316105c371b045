import HostPolicy.Text.Digits

/-!
Lengths of time, to the nanosecond, and the text they are shown as: a number of the largest of
four units that it reaches, with the decimals that it needs.
-/

namespace HostPolicy

structure Duration where
  nanos : Nat
  deriving DecidableEq, Repr

namespace Duration

def ofMillis (n : Nat) : Duration := ⟨n * 1000000⟩

def ofParts (seconds nanos : Nat) : Duration := ⟨seconds * 1000000000 + nanos⟩

/-- `whole` units and `part` of `10 ^ places`, without trailing zeros. -/
def amount (whole part places : Nat) : List Char :=
  let decimals := ((Text.toDigits 10 places part).reverse.dropWhile (· == 0)).reverse
  Text.decimal whole ++
    if decimals.isEmpty then [] else '.' :: decimals.flatMap Text.decimal

def inUnit (places : Nat) (unit : String) (d : Duration) : String :=
  String.ofList (amount (d.nanos / Nat.pow 10 places) (d.nanos % Nat.pow 10 places) places) ++ unit

def text (d : Duration) : String :=
  if Nat.pow 10 9 ≤ d.nanos then inUnit 9 "s" d
  else if Nat.pow 10 6 ≤ d.nanos then inUnit 6 "ms" d
  else if Nat.pow 10 3 ≤ d.nanos then inUnit 3 "µs" d
  else inUnit 0 "ns" d

end Duration

end HostPolicy
