import DhcpRelay.Processor.Lifecycle
import DhcpRelay.V4.Relay

/-!
# The DHCPv4 processor

The processor owns the socket of the protocol and the relay behind it. It serves from the moment
the socket opens until it is stopped or its receive loop ends. An interface that becomes active gets
a link handle, one that ceases to be active loses it, and a stopped processor holds none.
-/

namespace DhcpRelay.V4

/-- The state of the processor. -/
structure Processor where
  relay : Relay := {}
  running : Bool := false
  /-- How often the socket was asked for. -/
  binds : Nat := 0
  deriving DecidableEq

namespace Processor

/-- Starts the receive loop unless it runs; `binds n` says whether the n-th request for the socket
is granted. -/
def start (binds : Nat → Bool) (p : Processor) : Option StartFailure × Processor :=
  if p.running then (none, p)
  else if binds p.binds then (none, { p with running := true, binds := p.binds + 1 })
  else (some (.socket .v4), { p with binds := p.binds + 1 })

/-- Obeys a command. -/
def perform (net : Network) (t : Tracker) (c : Command) (p : Processor) : Processor :=
  match c with
  | .stop => { p with running := false, relay := p.relay.closeLinks }
  | .createInterface name =>
    { p with relay := { p.relay with counters := p.relay.counters.createInterface name } }
  | .deleteInterface name =>
    { p with relay := { p.relay with counters := p.relay.counters.deleteInterface name } }
  | .activate index => { p with relay := p.relay.openLink net t index }
  | .deactivate index => { p with relay := p.relay.closeLink index }

/-- The receive loop ended on its own. -/
def loopEnded (p : Processor) : Processor := { p with running := false }

/-- How the processor follows the manager. -/
def lifecycle (binds : Nat → Bool) (net : Network) : Lifecycle Processor where
  running p := p.running
  start := start binds
  perform := perform net

end Processor

end DhcpRelay.V4
