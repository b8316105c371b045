import HostPolicy.Address.Basic

/-!
Reading address literals. An IPv4 literal is four decimal octets between dots; an IPv6 literal is
eight groups of hexadecimal digits between colons, of which one run of zero groups may be left out
as `::` and the last two may be a dotted IPv4 literal.

A reader takes the text from the front and answers what it read and the rest.
-/

namespace HostPolicy.Address

open Text

/-- How closely a literal keeps to the rules. A loose one may have octets padded to three digits
with zeros, as `010`, and may have `::` among eight groups, where it stands for none. -/
inductive Form where
  | strict
  | loose
  deriving DecidableEq, Repr

/-- How few zero groups `::` may stand for. -/
def Form.fewestZeros : Form → Nat
  | strict => 1
  | loose => 0

def readOctet (form : Form) (cs : List Char) : Option (Nat × List Char) :=
  let digits := cs.takeWhile Char.isDigit
  if digits.length = 0 ∨ 3 < digits.length then none
  else if form = .strict ∧ 1 < digits.length ∧ digits.head? = some '0' then none
  else if 255 < decimalValue digits then none
  else some (decimalValue digits, cs.dropWhile Char.isDigit)

def readChar (c : Char) : List Char → Option (List Char)
  | d :: cs => if c = d then some cs else none
  | [] => none

def readDotted (form : Form) (cs : List Char) : Option (List Nat × List Char) := do
  let (a, cs) ← readOctet form cs
  let (b, cs) ← readOctet form (← readChar '.' cs)
  let (c, cs) ← readOctet form (← readChar '.' cs)
  let (d, cs) ← readOctet form (← readChar '.' cs)
  return ([a, b, c, d], cs)

def readGroup (cs : List Char) : Option (Nat × List Char) :=
  let digits := cs.takeWhile isHex
  if digits.length = 0 ∨ 4 < digits.length then none
  else some (hexadecimalValue digits, cs.dropWhile isHex)

/-- A dotted literal as the two groups that it stands for. -/
def readDottedGroups (form : Form) (cs : List Char) : Option (List Nat × List Char) :=
  (readDotted form cs).map fun (octets, rest) =>
    (toDigits 65536 2 (ofDigits 256 octets), rest)

/-- As many groups as there are, up to `limit`; all but the first of the run, `leading`, follow a
colon. A dotted literal may stand where two groups have room, and ends the run. Answers the
groups, whether the run ended in a dotted literal, and the rest. -/
def readGroups (form : Form) : Nat → Bool → List Char → List Nat × Bool × List Char
  | 0, _, cs => ([], false, cs)
  | limit + 1, leading, cs =>
    match if leading then some cs else readChar ':' cs with
    | none => ([], false, cs)
    | some next =>
      match if 0 < limit then readDottedGroups form next else none with
      | some (pair, rest) => (pair, true, rest)
      | none =>
        match readGroup next with
        | none => ([], false, cs)
        | some (group, rest) =>
          let (groups, dotted, rest) := readGroups form limit false rest
          (group :: groups, dotted, rest)

def readV4 (form : Form) (cs : List Char) : Option (BitVec 32 × List Char) :=
  (readDotted form cs).map fun (octets, rest) => (ofOctets octets, rest)

/-- A dotted literal cannot stand before `::`. -/
def readV6 (form : Form) (cs : List Char) : Option (BitVec 128 × List Char) :=
  let (head, dotted, rest) := readGroups form 8 true cs
  if head.length = 8 then some (ofGroups head, rest)
  else if dotted then none
  else
    match rest with
    | ':' :: ':' :: rest =>
      let (tail, _, rest) := readGroups form (8 - head.length - form.fewestZeros) true rest
      let zeros := List.replicate (8 - head.length - tail.length) 0
      some (ofGroups (head ++ zeros ++ tail), rest)
    | _ => none

/-- What a reader read, if it read the whole text. -/
def wholly {α : Type} : Option (α × List Char) → Option α
  | some (value, []) => some value
  | _ => none

/-- The address that the whole text is a literal of. -/
def parse? (text : String) : Option Address :=
  let cs := text.toList
  ((wholly (readV4 .strict cs)).map v4).or ((wholly (readV6 .strict cs)).map v6)

end HostPolicy.Address
