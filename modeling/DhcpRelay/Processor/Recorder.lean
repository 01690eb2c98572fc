import DhcpRelay.Processor.Lifecycle

/-!
# The recording processor

A processor that opens no socket: it records what it is told and keeps what a serving processor
would hold. It stands in for the protocol processors in a dry run.
-/

namespace DhcpRelay

/-- What a recorder was told. -/
inductive Call where
  | start
  | command (c : Command)
  deriving DecidableEq, Repr

/-- A call as it is logged. -/
def Call.text : Call → String
  | .start => "start"
  | .command .stop => "stop"
  | .command (.createInterface name) => "create_intf:" ++ name
  | .command (.deleteInterface name) => "delete_intf:" ++ name
  | .command (.activate index) => "activate:" ++ Numeral.signedDecimal index
  | .command (.deactivate index) => "deactivate:" ++ Numeral.signedDecimal index

/-- The state of a recording processor. -/
structure Recorder where
  running : Bool := false
  /-- Whether its starts fail. -/
  failStart : Bool := false
  /-- How often it began to serve. -/
  starts : Nat := 0
  /-- How often it ceased to serve. -/
  stops : Nat := 0
  /-- What it was told, first to last. -/
  calls : List Call := []
  /-- The indices that are activated. -/
  held : SortedTable Int Unit := ∅
  /-- The names of the interfaces that have a record. -/
  interfaces : SortedTable String Unit := ∅
  deriving DecidableEq

namespace Recorder

/-- Adds to what the recorder was told. -/
def record (r : Recorder) (c : Call) : Recorder := { r with calls := r.calls ++ [c] }

/-- Starts, unless starts fail. -/
def start (family : Family) (r : Recorder) : Option StartFailure × Recorder :=
  let r := r.record .start
  if r.failStart then (some (.simulated family), r)
  else if r.running then (none, r)
  else (none, { r with running := true, starts := r.starts + 1 })

/-- Obeys a command. -/
def perform (c : Command) (r : Recorder) : Recorder :=
  let r := r.record (.command c)
  match c with
  | .stop =>
    { r with running := false, stops := if r.running then r.stops + 1 else r.stops, held := ∅ }
  | .createInterface name => { r with interfaces := r.interfaces.insert name () }
  | .deleteInterface name => { r with interfaces := r.interfaces.erase name }
  | .activate index => { r with held := r.held.insert index () }
  | .deactivate index => { r with held := r.held.erase index }

/-- How a recorder follows the manager. -/
def lifecycle (family : Family) : Lifecycle Recorder where
  running r := r.running
  start := start family
  perform _ c := perform c

/-- The recorder with nothing told. -/
def clearCalls (r : Recorder) : Recorder := { r with calls := [] }

end Recorder

end DhcpRelay
