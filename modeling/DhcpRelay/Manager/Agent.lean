import DhcpRelay.Interface.Event
import DhcpRelay.Processor.Lifecycle
import DhcpRelay.Validation

/-!
# The relay agent of one family

An `Agent` is a tracker and the processor that follows it. Configuration and interface events
change the tracker; after each change `Agent.reconcile` brings the processor in line with the new
active set: with no active interface it is stopped, otherwise interfaces that ceased to be active
are deactivated, the processor is started, and the interfaces it does not serve yet are activated.

A record is validated first, so a rejected one changes nothing.
-/

namespace DhcpRelay

open Interface (Event Change Property)

/-- A tracker and the processor that follows it. -/
structure Agent (σ : Type) where
  tracker : Tracker := {}
  processor : σ

namespace Agent

variable {σ : Type}

/-! ## Following the active set -/

/-- Sends a command to the processor. -/
def command (l : Lifecycle σ) (a : Agent σ) (c : Command) : Agent σ :=
  { a with processor := l.perform a.tracker c a.processor }

/-- Sends commands in their order. -/
def commands (l : Lifecycle σ) (a : Agent σ) (cs : List Command) : Agent σ :=
  cs.foldl (command l) a

/-- Changes the tracker and brings the processor in line with the new active set. A start that
fails leaves the activations undone. -/
def reconcile (l : Lifecycle σ) (change : Tracker → Tracker) (a : Agent σ) : Agent σ :=
  let before := a.tracker.activeIndices
  let a := { a with tracker := change a.tracker }
  let after := a.tracker.activeIndices
  if after.isEmpty then a.command l .stop
  else
    let a := a.commands l ((before.filter (· ∉ after)).map .deactivate)
    let wasRunning := l.running a.processor
    match l.start a.processor with
    | (some _, processor) => { a with processor }
    | (none, processor) =>
      { a with processor }.commands l
        ((after.filter fun i => !wasRunning || i ∉ before).map .activate)

/-! ## Configuration -/

/-- Sets the global record. -/
def updateGlobal (l : Lifecycle σ) (a : Agent σ) (c : GlobalConfig) :
    Except Rejection Unit × Agent σ :=
  match c.validate with
  | .error e => (.error e, a)
  | .ok () => (.ok (), a.reconcile l (·.setGlobal c))

/-- Removes the global record. -/
def deleteGlobal (l : Lifecycle σ) (a : Agent σ) : Agent σ := a.reconcile l Tracker.clearGlobal

/-- Sets the record of an interface. The record of an interface that does not exist is stored for
when it does. -/
def updateInterface (l : Lifecycle σ) (family : Family) (a : Agent σ) (c : InterfaceConfig) :
    Except Rejection Unit × Agent σ :=
  match a.tracker.validateInterface family c with
  | .error e => (.error e, a)
  | .ok () =>
    let a := if a.tracker.configs.contains c.name then a else a.command l (.createInterface c.name)
    if (a.tracker.props.index? c.name).isNone then
      (.ok (), { a with tracker := a.tracker.setInterface c })
    else (.ok (), a.reconcile l (·.setInterface c))

/-- Sets the record of an interface that has to exist. -/
def createInterface (l : Lifecycle σ) (family : Family) (a : Agent σ) (c : InterfaceConfig) :
    Except Rejection Unit × Agent σ :=
  if (a.tracker.props.index? c.name).isNone then (.error (.unknownInterface family c.name), a)
  else a.updateInterface l family c

/-- Removes the record of an interface. -/
def deleteInterface (l : Lifecycle σ) (a : Agent σ) (name : String) : Agent σ :=
  (a.reconcile l (·.removeInterface name)).command l (.deleteInterface name)

/-! ## Configuration as a whole -/

/-- A configuration that is being applied. -/
structure Loading (σ : Type) where
  /-- What was rejected so far, first to last. -/
  rejected : List Rejection := []
  agent : Agent σ

namespace Loading

/-- Takes the answer of one update. -/
def take (s : Loading σ) : Except Rejection Unit × Agent σ → Loading σ
  | (.error e, agent) => ⟨s.rejected ++ [e], agent⟩
  | (.ok (), agent) => ⟨s.rejected, agent⟩

/-- Sets a global record. -/
def global (l : Lifecycle σ) (s : Loading σ) (c : GlobalConfig) : Loading σ :=
  s.take (s.agent.updateGlobal l c)

/-- Removes records of interfaces one after another. -/
def delete (l : Lifecycle σ) (s : Loading σ) (names : List String) : Loading σ :=
  { s with agent := names.foldl (deleteInterface l) s.agent }

/-- Sets the records of interfaces one after another. -/
def interfaces (l : Lifecycle σ) (family : Family) (s : Loading σ) (cs : List InterfaceConfig) :
    Loading σ :=
  cs.foldl (fun s c => s.take (s.agent.updateInterface l family c)) s

/-- What was rejected, and the agent. -/
def result (s : Loading σ) : List Rejection × Agent σ := (s.rejected, s.agent)

end Loading

/-- Applies a configuration for the first time. What is rejected is answered and left out. -/
def init (l : Lifecycle σ) (family : Family) (a : Agent σ) (c : FamilyConfig) :
    List Rejection × Agent σ :=
  let s : Loading σ := { agent := a }
  let s := match c.global with
    | some global => s.global l global
    | none => s
  (s.interfaces l family c.interfaces).result

/-- The global part of a reload. -/
def reloadGlobal (l : Lifecycle σ) (a : Agent σ) (old new : Option GlobalConfig) : Loading σ :=
  let s : Loading σ := { agent := a }
  match old, new with
  | some _, none => { agent := a.deleteGlobal l }
  | none, some global => s.global l global
  | some before, some global => if before = global then s else s.global l global
  | none, none => s

/-- Applies the difference between two configurations: the global record if it changed, then the
removal of interfaces that the new one does not list, then its records that the old one does not
hold as they are. -/
def reload (l : Lifecycle σ) (family : Family) (a : Agent σ) (old new : FamilyConfig) :
    List Rejection × Agent σ :=
  let gone := old.interfaces.filter fun c => (new.find? c.name).isNone
  let changed := new.interfaces.filter fun c => old.find? c.name ≠ some c
  (((a.reloadGlobal l old.global new.global).delete l (gone.map (·.name))).interfaces l family
    changed).result

/-! ## Events -/

/-- The address of an event as the tracker takes it: `none` if the text is no address of the
family, in which case the event is passed over. -/
def eventAddress? (e : Event) : Option (Option Cidr) :=
  match e.address with
  | none => some none
  | some text =>
    match e.family, Cidr.parse? text with
    | .v4, some ⟨.v4 a, n⟩ => some (some ⟨.v4 a, n⟩)
    | .v6, some ⟨.v6 a, n⟩ => some (some ⟨.v6 a, n⟩)
    | _, _ => none

/-- The change of the tracker that an event means. -/
def eventChange (e : Event) (address : Option Cidr) (t : Tracker) : Tracker :=
  match e.change with
  | .created up =>
    t.interfaceCreated e.family
      { index := e.index, name := e.name, address := address.map Cidr.address,
        prefixLen := (address.map Cidr.prefixLen).getD 0, up }
  | .deleted => t.interfaceDeleted e.family e.index (address.map Cidr.address)
  | .stateChanged up => t.interfaceStateChanged e.family e.index up (address.map Cidr.address)

/-- Takes an event of the agent's family. -/
def notify (l : Lifecycle σ) (a : Agent σ) (e : Event) : Agent σ :=
  match eventAddress? e with
  | none => a
  | some address => a.reconcile l (eventChange e address)

/-! ## Queries -/

/-- What `find?` has on an interface, which has to exist. -/
def interfaceState {ι : Type} (find? : σ → String → Option ι) (family : Family) (a : Agent σ)
    (name : String) : Except Rejection (Option ι) :=
  if (a.tracker.props.index? name).isNone then .error (.unknownInterface family name)
  else .ok (find? a.processor name)

end Agent

end DhcpRelay
