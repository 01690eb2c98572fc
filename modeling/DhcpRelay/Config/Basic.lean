import DhcpRelay.Family

/-!
# Relay configuration

What an operator configures: per family one global record and a record per interface, and for the
whole daemon how often the interface listing is read. An interface record is known by the name of
its interface; where a list holds two records of one name, `FamilyConfig.find?` answers the first.
-/

namespace DhcpRelay

/-- The only routing instance in which the relay agent runs. -/
def defaultVrf : String := "default"

/-- The largest number of relays a message may pass. -/
def maxHopCount : UInt8 := 32

/-- The global relay settings of one family. -/
structure GlobalConfig where
  vrf : String := defaultVrf
  enable : Bool := false
  /-- The number of relays a message may have passed before it is dropped. -/
  hopCountLimit : UInt8 := maxHopCount
  deriving DecidableEq, Repr

namespace GlobalConfig

/-- The enabled settings with the given limit. -/
def enabled (hopCountLimit : UInt8) : GlobalConfig := ⟨defaultVrf, true, hopCountLimit⟩

/-- The limit that relayed messages meet. -/
def effectiveHopLimit (c : GlobalConfig) : UInt8 := min c.hopCountLimit maxHopCount

end GlobalConfig

/-- The relay settings of one interface. -/
structure InterfaceConfig where
  name : String
  enable : Bool := false
  /-- The servers, in text, in the order in which they are tried. -/
  servers : List String := []
  /-- The interfaces on which IPv6 messages are sent on to all servers of the link. -/
  upstreams : List String := []
  deriving DecidableEq, Repr

/-- The settings of one family. -/
structure FamilyConfig where
  global : Option GlobalConfig := none
  interfaces : List InterfaceConfig := []
  deriving DecidableEq, Repr

/-- The first record of the given name. -/
def FamilyConfig.find? (c : FamilyConfig) (name : String) : Option InterfaceConfig :=
  c.interfaces.find? (·.name == name)

/-- The settings of the daemon. -/
structure DaemonConfig where
  dhcp : FamilyConfig := {}
  dhcpv6 : FamilyConfig := {}
  /-- The seconds between two readings of the interface listing. -/
  pollSeconds : Nat := 5
  deriving DecidableEq, Repr

/-- The settings of one family. -/
def DaemonConfig.family (c : DaemonConfig) : Family → FamilyConfig
  | .v4 => c.dhcp
  | .v6 => c.dhcpv6

end DhcpRelay
