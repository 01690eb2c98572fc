import DhcpRelay.Tracker

/-!
# The lifecycle of a protocol processor

The manager drives a processor through commands: it starts and stops it, announces the interfaces
that are configured, and activates and deactivates interfaces. Only starting can fail. A
`Lifecycle σ` says how processors whose state is a `σ` follow; commands may look at the tracker,
which knows the interfaces by their index.
-/

namespace DhcpRelay

/-- A command to a processor that cannot fail. -/
inductive Command where
  /-- Stop serving and let go of every link. -/
  | stop
  /-- An interface is configured: make sure that it has a record. -/
  | createInterface (name : String)
  /-- An interface is no longer configured: drop its record. -/
  | deleteInterface (name : String)
  | activate (index : Int)
  | deactivate (index : Int)
  deriving DecidableEq, Repr

/-- Why a processor does not start. -/
inductive StartFailure where
  /-- A processor without a socket was told to fail. -/
  | simulated (family : Family)
  | socket (family : Family)
  deriving DecidableEq, Repr

/-- The wording of a failure. -/
def StartFailure.message : StartFailure → String
  | .simulated family => family.protocol ++ ": simulated bind failure"
  | .socket .v4 => "failed to open DHCP relay socket on port 67"
  | .socket .v6 => "failed to open DHCPv6 relay socket on port 547"

/-- How a processor follows the manager. -/
structure Lifecycle (σ : Type) where
  running : σ → Bool
  /-- Starts the processor unless it is serving. -/
  start : σ → Option StartFailure × σ
  perform : Tracker → Command → σ → σ

end DhcpRelay
