import DhcpRelay.Address.Cidr
import DhcpRelay.Json.Value

/-!
# Interface properties

What is known of an interface: its index, its name, its address with the prefix length, and
whether it is up.
-/

namespace DhcpRelay.Interface

/-- What is known of one interface. -/
structure Property where
  index : Int
  name : String
  address : Option IpAddress
  prefixLen : Nat
  up : Bool
  deriving DecidableEq, Repr

namespace Property

/-- The address, if it is an IPv4 address. -/
def v4Address? (p : Property) : Option V4Address :=
  match p.address with
  | some (.v4 a) => some a
  | _ => none

/-- The address, if it is an IPv6 address. -/
def v6Address? (p : Property) : Option V6Address :=
  match p.address with
  | some (.v6 a) => some a
  | _ => none

/-- The mask of the interface's network. -/
def netmask? (p : Property) : Option IpAddress := p.address.map (IpAddress.mask p.prefixLen)

/-- The property in JSON. -/
def toJson (p : Property) : Json :=
  .obj [("index", .int p.index), ("name", .str p.name),
    ("address", .ofOption (fun a => .str a.text) p.address), ("prefix_len", .nat p.prefixLen),
    ("up", .bool p.up)]

end Property

end DhcpRelay.Interface
