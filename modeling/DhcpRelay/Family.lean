import DhcpRelay.Json.Record

/-!
# Address families

The relay agent serves two families side by side. Each has its own configuration, its own tables
and its own processor; a `Family` says which one is meant.
-/

namespace DhcpRelay

/-- An address family. -/
inductive Family where
  | v4
  | v6
  deriving DecidableEq, Repr

namespace Family

/-- Both families, in the order in which they are served. -/
def all : List Family := [.v4, .v6]

/-- The spelling in records. -/
def tag : Family → String
  | .v4 => "v4"
  | .v6 => "v6"

/-- The name in messages. -/
def name : Family → String
  | .v4 => "ipv4"
  | .v6 => "ipv6"

/-- The relayed protocol. -/
def protocol : Family → String
  | .v4 => "dhcp"
  | .v6 => "dhcpv6"

/-- The family with the given spelling. -/
def ofTag? (s : String) : Option Family :=
  if s = "v4" then some .v4 else if s = "v6" then some .v6 else none

/-- The family as it stands in a record. -/
def toJson (f : Family) : Json := .str f.tag

/-- Reads a family: its spelling, or an object whose only member has that name and is `null`. -/
def ofJson? : Json → Option Family
  | .string s => s >>= ofTag?
  | .object [(some s, .null)] => ofTag? s
  | _ => none

end Family

end DhcpRelay
