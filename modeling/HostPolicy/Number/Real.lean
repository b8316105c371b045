import HostPolicy.Number.Shortest

/-!
How binary64 numbers are written: the fewest digits that read back, in positions when the first
digit is from the fifth place after the point to the sixteenth before it, and otherwise with an
exponent, which always has a sign.
-/

namespace HostPolicy.Number

/-- The last and the first place of a first digit that is written in position. -/
def lowestPosition : Int := -5

def highestPosition : Int := 15

def digitChars (digits : List Nat) : List Char :=
  digits.flatMap Text.decimal

/-- Digits in position, from the place of the first; there is a digit on both sides of the
point. -/
def positional (digits : List Nat) (place : Int) : List Char :=
  if place < 0 then
    ['0', '.'] ++ List.replicate (-place - 1).toNat '0' ++ digitChars digits
  else
    let whole := place.toNat + 1
    let padded := digits ++ List.replicate (whole - digits.length) 0
    let rest := padded.drop whole
    digitChars (padded.take whole) ++ '.' :: (if rest.isEmpty then ['0'] else digitChars rest)

def scientific (digits : List Nat) (place : Int) : List Char :=
  let mantissa := match digits with
    | [] => ['0']
    | [d] => digitChars [d]
    | d :: rest => digitChars [d] ++ '.' :: digitChars rest
  mantissa ++ ['e', if place < 0 then '-' else '+'] ++ Text.decimal place.natAbs

/-- The digits of a decimal from the first to the last that is not zero, and the place of the
first. -/
def significant (d : Decimal) : List Nat × Int :=
  let chars := Text.decimal d.digits
  let digits := chars.map fun c => c.toNat - '0'.toNat
  ((digits.reverse.dropWhile (· == 0)).reverse, d.exponent + chars.length - 1)

def realChars (bits : UInt64) : List Char :=
  let sign := if isNegative bits then ['-'] else []
  let b := Binary.ofBits bits
  if b.mantissa = 0 then sign ++ ['0', '.', '0']
  else
    let (digits, place) := significant b.surroundings.shortest
    sign ++
      if lowestPosition ≤ place ∧ place ≤ highestPosition then positional digits place
      else scientific digits place

def realText (x : Float) : String :=
  String.ofList (realChars x.toBits)

end HostPolicy.Number
