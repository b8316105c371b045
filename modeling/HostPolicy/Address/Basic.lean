import HostPolicy.Text.Digits

/-!
Internet addresses of both families, and the canonical form in which they are compared: an IPv6
address that stands for an IPv4 address is that IPv4 address.
-/

namespace HostPolicy

inductive Address where
  | v4 (bits : BitVec 32)
  | v6 (bits : BitVec 128)
  deriving DecidableEq, Repr

namespace Address

def octets (bits : BitVec 32) : List Nat :=
  Text.toDigits 256 4 bits.toNat

def ofOctets (octets : List Nat) : BitVec 32 :=
  BitVec.ofNat 32 (Text.ofDigits 256 octets)

def groups (bits : BitVec 128) : List Nat :=
  Text.toDigits 65536 8 bits.toNat

def ofGroups (groups : List Nat) : BitVec 128 :=
  BitVec.ofNat 128 (Text.ofDigits 65536 groups)

/-- The IPv4 address that an address of `::ffff:0:0/96` stands for. -/
def mapped? (bits : BitVec 128) : Option (BitVec 32) :=
  if bits >>> 32 = 0xFFFF#128 then some (bits.setWidth 32) else none

/-- The IPv6 address of `::ffff:0:0/96` that stands for an IPv4 address. -/
def mapped (bits : BitVec 32) : BitVec 128 :=
  0xFFFF#96 ++ bits

def canonical : Address → Address
  | v4 bits => v4 bits
  | v6 bits =>
    match mapped? bits with
    | some low => v4 low
    | none => v6 bits

end Address

end HostPolicy
