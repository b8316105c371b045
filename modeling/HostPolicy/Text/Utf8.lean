/-!
UTF-8. A text is written one character after the other; octets are read by a machine that takes
one octet at a time and yields a character, or a hole for each longest run of octets that no text
starts with or goes on with.
-/

namespace HostPolicy.Text.Utf8

def encode (s : String) : List UInt8 :=
  s.toList.flatMap String.utf8EncodeChar

/-- A character whose first octets have been read: `owed` more complete it, the next of them is
from `low` to `high`, and `bits` is what the octets so far carry. -/
structure Unfinished where
  owed : Nat
  low : Nat
  high : Nat
  bits : Nat
  deriving DecidableEq, Repr

/-- An octet read between two characters. -/
def start (octet : Nat) : Option Unfinished × List (Option Char) :=
  if octet < 0x80 then (none, [some (Char.ofNat octet)])
  else if octet < 0xC2 then (none, [none])
  else if octet < 0xE0 then (some ⟨1, 0x80, 0xBF, octet % 32⟩, [])
  else if octet = 0xE0 then (some ⟨2, 0xA0, 0xBF, 0⟩, [])
  else if octet = 0xED then (some ⟨2, 0x80, 0x9F, 13⟩, [])
  else if octet < 0xF0 then (some ⟨2, 0x80, 0xBF, octet % 16⟩, [])
  else if octet = 0xF0 then (some ⟨3, 0x90, 0xBF, 0⟩, [])
  else if octet < 0xF4 then (some ⟨3, 0x80, 0xBF, octet % 8⟩, [])
  else if octet = 0xF4 then (some ⟨3, 0x80, 0x8F, 4⟩, [])
  else (none, [none])

/-- An octet that cannot go on with an unfinished character leaves a hole and is read anew. -/
def step : Option Unfinished → Nat → Option Unfinished × List (Option Char)
  | none, octet => start octet
  | some u, octet =>
    if u.low ≤ octet ∧ octet ≤ u.high then
      let bits := u.bits * 64 + octet % 64
      if u.owed = 1 then (none, [some (Char.ofNat bits)])
      else (some ⟨u.owed - 1, 0x80, 0xBF, bits⟩, [])
    else
      let (next, read) := start octet
      (next, none :: read)

/-- Where the machine stands after the octets, and what it has read, the latest first. -/
def scan (octets : List UInt8) : Option Unfinished × List (Option Char) :=
  octets.foldl
    (fun (state, read) octet =>
      let (next, more) := step state octet.toNat
      (next, more.reverse ++ read))
    (none, [])

/-- The characters and holes of the octets, in order; a character cut short at the end is a
hole. -/
def slots (octets : List UInt8) : List (Option Char) :=
  match scan octets with
  | (none, read) => read.reverse
  | (some _, read) => (none :: read).reverse

/-- Every hole becomes a replacement character. -/
def decodeLossy (octets : List UInt8) : List Char :=
  (slots octets).map (·.getD '\uFFFD')

/-- The text that the octets spell, if they spell one throughout. -/
def decode? (octets : List UInt8) : Option (List Char) :=
  let read := slots octets
  if read.all Option.isSome then some (read.filterMap id) else none

end HostPolicy.Text.Utf8
