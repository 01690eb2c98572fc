import DhcpRelay.Address.V6

/-!
# Addresses of either family, and addresses with a prefix length

A `Cidr` is what an interface holds: an address and how many of its leading bits name the network.
In text the length follows a slash; an address without one has the full length of its family.
-/

namespace DhcpRelay

/-- An address of either family. -/
inductive IpAddress where
  | v4 (address : V4Address)
  | v6 (address : V6Address)
  deriving DecidableEq, Repr

namespace IpAddress

/-- The address in text. -/
def text : IpAddress → String
  | .v4 a => a.text
  | .v6 a => a.text

/-- Reads an address of either family. -/
def parse? (s : String) : Option IpAddress :=
  ((V4Address.parse? s).map .v4).or ((V6Address.parse? s).map .v6)

/-- The number of bits of an address. -/
def width : IpAddress → Nat
  | .v4 _ => 32
  | .v6 _ => 128

/-- The mask of this address' family whose first `n` bits are set. -/
def mask (n : Nat) : IpAddress → IpAddress
  | .v4 _ => .v4 (.mask n)
  | .v6 _ => .v6 (.mask n)

/-- Whether this is an IPv6 address in fe80::/10. -/
def isLinkLocalV6 : IpAddress → Bool
  | .v4 _ => false
  | .v6 a => a.isLinkLocal

end IpAddress

/-- An address and a prefix length. -/
structure Cidr where
  address : IpAddress
  prefixLen : Nat
  deriving DecidableEq, Repr

/-- Reads an address with an optional prefix length, which may have a plus sign and leading zeros
and may not exceed the width of the address. -/
def Cidr.parse? (s : String) : Option Cidr := do
  let (front, rest) := s.toList.span (· ≠ '/')
  let address ← IpAddress.parse? (String.ofList front)
  match rest with
  | [] => return ⟨address, address.width⟩
  | _ :: digits =>
    let length ← Numeral.octet? 10 digits
    guard (length.toNat ≤ address.width)
    return ⟨address, length.toNat⟩

end DhcpRelay
