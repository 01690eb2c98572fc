import DhcpRelay.Processor.Lifecycle
import DhcpRelay.V6.Relay

/-!
# The DHCPv6 processor

The processor owns the socket of the protocol and the relay behind it. The groups that the socket
joins on active interfaces belong to the socket, so activation leaves no trace here.
-/

namespace DhcpRelay.V6

/-- The state of the processor. -/
structure Processor where
  relay : Relay := {}
  running : Bool := false
  /-- How often the socket was asked for. -/
  binds : Nat := 0
  deriving DecidableEq

namespace Processor

/-- Starts the receive loop unless it runs; `binds n` says whether the n-th request for the socket
is granted. -/
def start (binds : Nat → Bool) (p : Processor) : Option StartFailure × Processor :=
  if p.running then (none, p)
  else if binds p.binds then (none, { p with running := true, binds := p.binds + 1 })
  else (some (.socket .v6), { p with binds := p.binds + 1 })

/-- Obeys a command. -/
def perform (c : Command) (p : Processor) : Processor :=
  match c with
  | .stop => { p with running := false }
  | .createInterface name =>
    { p with relay := { p.relay with counters := p.relay.counters.createInterface name } }
  | .deleteInterface name =>
    { p with relay := { p.relay with counters := p.relay.counters.deleteInterface name } }
  | .activate _ => p
  | .deactivate _ => p

/-- The receive loop ended on its own. -/
def loopEnded (p : Processor) : Processor := { p with running := false }

/-- How the processor follows the manager. -/
def lifecycle (binds : Nat → Bool) : Lifecycle Processor where
  running p := p.running
  start := start binds
  perform _ c := perform c

end Processor

end DhcpRelay.V6
