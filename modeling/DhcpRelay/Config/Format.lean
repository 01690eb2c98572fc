import DhcpRelay.Config.Basic

/-!
# The format of configuration records

How each record is written as a JSON value and read from one. Every field but an interface's name
has a default.
-/

namespace DhcpRelay

open Json

namespace GlobalConfig

/-- The record in JSON. -/
def toJson (c : GlobalConfig) : Json :=
  .obj [("vrf", .str c.vrf), ("enable", .bool c.enable),
    ("hop_count_limit", .nat c.hopCountLimit.toNat)]

/-- Reads the record. -/
def ofJson? (v : Json) : Option GlobalConfig := do
  match ← v.fields? ["vrf", "enable", "hop_count_limit"] with
  | [vrf, enable, limit] =>
    let vrf ← orElse? defaultVrf string? vrf
    let enable ← orElse? false bool? enable
    let limit ← orElse? maxHopCount.toNat (natural? 255) limit
    return ⟨vrf, enable, UInt8.ofNat limit⟩
  | _ => none

end GlobalConfig

namespace InterfaceConfig

/-- The record in JSON. -/
def toJson (c : InterfaceConfig) : Json :=
  .obj [("intf_ref", .str c.name), ("enable", .bool c.enable),
    ("server_ip", .ofList .str c.servers), ("upstream_intfs", .ofList .str c.upstreams)]

/-- Reads the record. -/
def ofJson? (v : Json) : Option InterfaceConfig := do
  match ← v.fields? ["intf_ref", "enable", "server_ip", "upstream_intfs"] with
  | [name, enable, servers, upstreams] =>
    let name ← required? string? name
    let enable ← orElse? false bool? enable
    let servers ← orElse? [] (list? string?) servers
    let upstreams ← orElse? [] (list? string?) upstreams
    return ⟨name, enable, servers, upstreams⟩
  | _ => none

end InterfaceConfig

namespace FamilyConfig

/-- The record in JSON. -/
def toJson (c : FamilyConfig) : Json :=
  .obj [("global", .ofOption GlobalConfig.toJson c.global),
    ("interfaces", .ofList InterfaceConfig.toJson c.interfaces)]

/-- Reads the record. -/
def ofJson? (v : Json) : Option FamilyConfig := do
  match ← v.fields? ["global", "interfaces"] with
  | [global, interfaces] =>
    let global ← orElse? none (nullable? GlobalConfig.ofJson?) global
    let interfaces ← orElse? [] (list? InterfaceConfig.ofJson?) interfaces
    return ⟨global, interfaces⟩
  | _ => none

end FamilyConfig

namespace DaemonConfig

/-- The record in JSON. -/
def toJson (c : DaemonConfig) : Json :=
  .obj [("dhcp", c.dhcp.toJson), ("dhcpv6", c.dhcpv6.toJson),
    ("interface_poll_secs", .nat c.pollSeconds)]

/-- Reads the record. -/
def ofJson? (v : Json) : Option DaemonConfig := do
  match ← v.fields? ["dhcp", "dhcpv6", "interface_poll_secs"] with
  | [dhcp, dhcpv6, seconds] =>
    let dhcp ← orElse? {} FamilyConfig.ofJson? dhcp
    let dhcpv6 ← orElse? {} FamilyConfig.ofJson? dhcpv6
    let seconds ← orElse? 5 (natural? (UInt64.size - 1)) seconds
    return ⟨dhcp, dhcpv6, seconds⟩
  | _ => none

end DaemonConfig

end DhcpRelay
