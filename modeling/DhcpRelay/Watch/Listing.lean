import DhcpRelay.Json.Reader
import DhcpRelay.Json.Record

/-!
# The interface listing

The system lists its interfaces as a JSON array of links, each with its flags and its addresses.
An address that lacks its text or its prefix length is kept as such; whether it counts is decided
when the snapshot is built.
-/

namespace DhcpRelay.Watch

open Json

/-- An address of a link, as listed. -/
structure ListedAddress where
  /-- The listing's word for the family. -/
  family : String
  address : Option String
  prefixLen : Option Nat
  deriving DecidableEq, Repr

/-- A link, as listed. -/
structure Link where
  index : Int
  name : String
  flags : List String
  addresses : List ListedAddress
  deriving DecidableEq, Repr

/-- Reads a listed address. -/
def ListedAddress.ofJson? (v : Json) : Option ListedAddress := do
  match ← v.fields? ["family", "local", "prefixlen"] with
  | [family, address, prefixLen] =>
    let family ← orElse? "" string? family
    let address ← orElse? none (nullable? string?) address
    let prefixLen ← orElse? none (nullable? (natural? 255)) prefixLen
    return ⟨family, address, prefixLen⟩
  | _ => none

namespace Link

/-- Reads a listed link. -/
def ofJson? (v : Json) : Option Link := do
  match ← v.fields? ["ifindex", "ifname", "flags", "addr_info"] with
  | [index, name, flags, addresses] =>
    let index ← required? (integer? Int32.minValue.toInt Int32.maxValue.toInt) index
    let name ← required? string? name
    let flags ← orElse? [] (list? string?) flags
    let addresses ← orElse? [] (list? ListedAddress.ofJson?) addresses
    return ⟨index, name, flags, addresses⟩
  | _ => none

/-- Reads a listing. -/
def parseAll? (text : String) : Option (List Link) := Json.parse? text >>= list? ofJson?

/-- Whether the link leads back to the host itself. -/
def isLoopback (l : Link) : Bool := l.flags.contains "LOOPBACK"

/-- Whether the link is up: it is enabled and there is a carrier. -/
def isUp (l : Link) : Bool := l.flags.contains "UP" && l.flags.contains "LOWER_UP"

end Link

end DhcpRelay.Watch
