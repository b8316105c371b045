/-!
Numbers as digits: reading a run of decimal or hexadecimal digits, and a number as a fixed count
of digits in a base.
-/

namespace HostPolicy.Text

/-- The number with these digits in base `base`, the most significant first. -/
def ofDigits (base : Nat) (digits : List Nat) : Nat :=
  digits.foldl (fun n d => n * base + d) 0

/-- The last `count` digits of `n` in base `base`, the most significant first. -/
def toDigits (base : Nat) : Nat → Nat → List Nat
  | 0, _ => []
  | count + 1, n => toDigits base count (n / base) ++ [n % base]

def decimalValue (digits : List Char) : Nat :=
  ofDigits 10 (digits.map fun c => c.toNat - '0'.toNat)

def hexValue? (c : Char) : Option Nat :=
  if c.isDigit then some (c.toNat - '0'.toNat)
  else if 'a' ≤ c ∧ c ≤ 'f' then some (c.toNat - 'a'.toNat + 10)
  else if 'A' ≤ c ∧ c ≤ 'F' then some (c.toNat - 'A'.toNat + 10)
  else none

def isHex (c : Char) : Bool :=
  (hexValue? c).isSome

def hexadecimalValue (digits : List Char) : Nat :=
  ofDigits 16 (digits.map fun c => (hexValue? c).getD 0)

def decimal (n : Nat) : List Char :=
  Nat.toDigits 10 n

def hexadecimal (n : Nat) : List Char :=
  Nat.toDigits 16 n

end HostPolicy.Text
