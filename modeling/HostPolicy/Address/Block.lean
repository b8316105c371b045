import HostPolicy.Address.Reader
import HostPolicy.Address.Printer

/-!
Blocks of addresses, written as an address and the number of leading bits that all members share.
A block keeps the address as it was given; what it holds runs from its first address, with the
other bits clear, to its last, with them set.
-/

namespace HostPolicy

inductive Block where
  | v4 (address : BitVec 32) (length : Fin 33)
  | v6 (address : BitVec 128) (length : Fin 129)
  deriving DecidableEq, Repr

namespace Block

/-- The bits that tell the members of a block with `length` shared bits apart. -/
def hostMask (width length : Nat) : BitVec width :=
  BitVec.allOnes width >>> length

def lowest {width : Nat} (address : BitVec width) (length : Nat) : BitVec width :=
  address &&& ~~~hostMask width length

def highest {width : Nat} (address : BitVec width) (length : Nat) : BitVec width :=
  address ||| hostMask width length

/-- The block written with its first address. -/
def network : Block → Block
  | v4 address length => v4 (lowest address length) length
  | v6 address length => v6 (lowest address length) length

/-- Whether an address lies between the first and the last of the block, in its family. -/
def contains : Block → Address → Bool
  | v4 address length, .v4 x =>
    decide (lowest address length ≤ x) && decide (x ≤ highest address length)
  | v6 address length, .v6 x =>
    decide (lowest address length ≤ x) && decide (x ≤ highest address length)
  | _, _ => false

/-- At most `width` decimal digits, whose value is below `bound`. -/
def readLength (width bound : Nat) (cs : List Char) : Option (Fin bound × List Char) :=
  let digits := cs.takeWhile Char.isDigit
  if digits.length = 0 ∨ width < digits.length then none
  else if h : Text.decimalValue digits < bound then
    some (⟨Text.decimalValue digits, h⟩, cs.dropWhile Char.isDigit)
  else none

def readV4 (cs : List Char) : Option (Block × List Char) := do
  let (address, cs) ← Address.readV4 .loose cs
  let (length, cs) ← readLength 2 33 (← Address.readChar '/' cs)
  return (v4 address length, cs)

def readV6 (cs : List Char) : Option (Block × List Char) := do
  let (address, cs) ← Address.readV6 .loose cs
  let (length, cs) ← readLength 3 129 (← Address.readChar '/' cs)
  return (v6 address length, cs)

/-- The block that the whole text is written as. Unlike an address on its own, the address of a
block may be a loose literal. -/
def parse? (text : String) : Option Block :=
  let cs := text.toList
  (Address.wholly (readV4 cs)).or (Address.wholly (readV6 cs))

def chars : Block → List Char
  | v4 address length => Address.v4Chars address ++ '/' :: Text.decimal length
  | v6 address length => Address.v6Chars address ++ '/' :: Text.decimal length

def text (block : Block) : String :=
  String.ofList block.chars

end Block

structure BlockSet where
  blocks : List Block
  deriving DecidableEq, Repr

namespace BlockSet

def ofList (blocks : List Block) : BlockSet :=
  ⟨blocks.map Block.network⟩

def contains (s : BlockSet) (address : Address) : Bool :=
  s.blocks.any (·.contains address.canonical)

def size (s : BlockSet) : Nat :=
  s.blocks.length

def isEmpty (s : BlockSet) : Bool :=
  s.blocks.isEmpty

end BlockSet

end HostPolicy
