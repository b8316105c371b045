import HostPolicy.Address.Reader

/-!
Sets of addresses, compared in canonical form.
-/

namespace HostPolicy

/-- Canonical addresses, each once. -/
structure AddressSet where
  addresses : List Address
  deriving DecidableEq, Repr

namespace AddressSet

def ofList (addresses : List Address) : AddressSet :=
  ⟨(addresses.map Address.canonical).eraseDups⟩

def contains (s : AddressSet) (address : Address) : Bool :=
  s.addresses.contains address.canonical

def size (s : AddressSet) : Nat :=
  s.addresses.length

def isEmpty (s : AddressSet) : Bool :=
  s.addresses.isEmpty

end AddressSet

end HostPolicy
