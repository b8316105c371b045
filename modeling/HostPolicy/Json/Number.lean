import HostPolicy.Json.Fault
import HostPolicy.Number.Real
import HostPolicy.Text.Digits

/-!
Numbers in JSON. A number without a fraction and an exponent is an integer if it fits in
sixty-four bits, and every other number is a binary64 number: as many leading digits as fit in
sixty-four bits are kept, the others count as powers of ten, and what is kept is multiplied or
divided by the power of ten that is left.
-/

namespace HostPolicy.Json

inductive Number where
  | natural (n : Nat)
  | negative (n : Int)
  | real (x : Float)

/-- What a message calls a number. -/
def Number.text : Number → String
  | natural n => s!"integer `{n}`"
  | negative n => s!"integer `{n}`"
  | real x => s!"floating point `{HostPolicy.Number.realText x}`"

def digit (c : Char) : Nat :=
  c.toNat - '0'.toNat

def startsWithDigit (cs : List Char) : Bool :=
  cs.head?.any Char.isDigit

/-- Goes on with a number, digit by digit, as long as it stays below `2 ^ 64`. Answers the number,
how many digits were taken, and the rest. -/
def absorb : Nat → Nat → List Char → Nat × Nat × List Char
  | n, taken, [] => (n, taken, [])
  | n, taken, c :: cs =>
    if c.isDigit ∧ n * 10 + digit c < Nat.pow 2 64 then absorb (n * 10 + digit c) (taken + 1) cs
    else (n, taken, c :: cs)

/-- The largest exponent that is written out. -/
def largestExponent : Nat := 2147483647

/-- The digits of an exponent; `none` once it is beyond all bounds, with what follows the digit
that made it so. -/
def readExponentDigits : Nat → List Char → Option Nat × List Char
  | n, [] => (some n, [])
  | n, c :: cs =>
    if c.isDigit then
      if largestExponent < n * 10 + digit c then (none, cs)
      else readExponentDigits (n * 10 + digit c) cs
    else (some n, c :: cs)

def powerOfTen (n : Nat) : Float :=
  Float.ofScientific 1 false n

/-- The largest power of ten that a binary64 number holds. -/
def largestPower : Nat := 308

/-- `significand * 10 ^ exponent`, unless it is too large. A large negative exponent is worked off
by `10 ^ 308` at a time, until nothing is left of the number. -/
def scale : Nat → Float → Int → Option Float
  | 0, x, _ => some x
  | fuel + 1, x, exponent =>
    if exponent.natAbs ≤ largestPower then
      if 0 ≤ exponent then
        let y := x * powerOfTen exponent.natAbs
        if y.isInf then none else some y
      else some (x / powerOfTen exponent.natAbs)
    else if x == 0.0 then some x
    else if 0 ≤ exponent then none
    else scale fuel (x / powerOfTen largestPower) (exponent + largestPower)

def withSign (negative : Bool) (x : Float) : Float :=
  if negative then -x else x

/-- A number of at most twenty digits vanishes after two divisions by `10 ^ 308`. -/
def ofParts (negative : Bool) (significand : Nat) (exponent : Int) (rest : List Char) :
    Except Fault (Number × List Char) :=
  match scale 4 (Float.ofNat significand) exponent with
  | some x => .ok (.real (withSign negative x), rest)
  | none => fail .numberOutOfRange rest

/-- An exponent, from behind its letter. -/
def readExponent (negative : Bool) (significand : Nat) (exponent : Int) (cs : List Char) :
    Except Fault (Number × List Char) :=
  let (down, cs) := match cs with
    | '+' :: rest => (false, rest)
    | '-' :: rest => (true, rest)
    | _ => (false, cs)
  match cs with
  | [] => fail .endInValue []
  | c :: rest =>
    if c.isDigit then
      match readExponentDigits (digit c) rest with
      | (some n, rest) =>
        ofParts negative significand (if down then exponent - n else exponent + n) rest
      | (none, rest) =>
        if significand != 0 && !down then fail .numberOutOfRange rest
        else .ok (.real (withSign negative 0.0), rest.dropWhile Char.isDigit)
    else failPast .invalidNumber (c :: rest)

/-- What may follow the digits of a number that is no integer. -/
def readScale (negative : Bool) (significand : Nat) (exponent : Int) (cs : List Char) :
    Except Fault (Number × List Char) :=
  match cs with
  | 'e' :: rest => readExponent negative significand exponent rest
  | 'E' :: rest => readExponent negative significand exponent rest
  | _ => ofParts negative significand exponent cs

/-- A fraction, from behind the point: there has to be a digit. -/
def readFraction (negative : Bool) (significand : Nat) (exponent : Int) (cs : List Char) :
    Except Fault (Number × List Char) :=
  let (n, taken, rest) := absorb significand 0 cs
  if taken = 0 ∧ !startsWithDigit rest then
    if rest.isEmpty then fail .endInValue [] else failPast .invalidNumber rest
  else readScale negative n (exponent - taken) (rest.dropWhile Char.isDigit)

def integer (negative : Bool) (n : Nat) : Number :=
  if !negative then .natural n
  else if 0 < n ∧ n ≤ Nat.pow 2 63 then .negative (-n)
  else .real (-Float.ofNat n)

/-- What may follow the first digits of a number: further digits that do not fit, a fraction, an
exponent. -/
def readTail (negative : Bool) (significand : Nat) (cs : List Char) :
    Except Fault (Number × List Char) :=
  let further := (cs.takeWhile Char.isDigit).length
  match cs.dropWhile Char.isDigit with
  | '.' :: rest => readFraction negative significand further rest
  | rest =>
    if further = 0 ∧ rest.head? ≠ some 'e' ∧ rest.head? ≠ some 'E' then
      .ok (integer negative significand, rest)
    else readScale negative significand further rest

/-- The digits of a number, after any sign; a zero in front stands alone. -/
def readDigits (negative : Bool) (cs : List Char) : Except Fault (Number × List Char) :=
  match cs with
  | [] => fail .endInValue []
  | '0' :: rest =>
    if startsWithDigit rest then failPast .invalidNumber rest else readTail negative 0 rest
  | c :: _ =>
    if c.isDigit then
      let (n, _, rest) := absorb 0 0 cs
      readTail negative n rest
    else failPast .invalidNumber cs

def readNumber (cs : List Char) : Except Fault (Number × List Char) :=
  match cs with
  | '-' :: rest => readDigits true rest
  | _ => readDigits false cs

/-! ## Numbers that nobody asks for -/

def skipExponent (cs : List Char) : Except Fault (List Char) :=
  let cs := match cs with
    | '+' :: rest => rest
    | '-' :: rest => rest
    | _ => cs
  if startsWithDigit cs then .ok (cs.dropWhile Char.isDigit) else failPast .invalidNumber cs

def skipScale (cs : List Char) : Except Fault (List Char) :=
  match cs with
  | 'e' :: rest => skipExponent rest
  | 'E' :: rest => skipExponent rest
  | _ => .ok cs

def skipTail (cs : List Char) : Except Fault (List Char) :=
  match cs with
  | '.' :: rest =>
    if startsWithDigit rest then skipScale (rest.dropWhile Char.isDigit)
    else failPast .invalidNumber rest
  | _ => skipScale cs

def skipNumber (cs : List Char) : Except Fault (List Char) :=
  let cs := match cs with
    | '-' :: rest => rest
    | _ => cs
  match cs with
  | '0' :: rest => if startsWithDigit rest then failPast .invalidNumber rest else skipTail rest
  | _ =>
    if startsWithDigit cs then skipTail (cs.dropWhile Char.isDigit) else failPast .invalidNumber cs

end HostPolicy.Json
