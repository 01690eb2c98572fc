import DhcpRelay.Manager.Agent
import DhcpRelay.Processor.Recorder
import DhcpRelay.V4.Processor
import DhcpRelay.V6.Processor

/-!
# The relay manager

The agents of both families. They share nothing: an operation names a family and concerns its agent
alone.

The processors that a manager drives are recorders in a dry run, and otherwise the protocol
processors. The latter need the system's sockets; where there are none, no socket opens, nothing is
sent and no link is opened (`Lifecycles.offline`).
-/

namespace DhcpRelay

open Interface (Event)

/-- The agents of both families, with the states of their processors. -/
structure Manager (σ₄ σ₆ : Type) where
  v4 : Agent σ₄
  v6 : Agent σ₆

/-- How the processors of both families follow. -/
structure Lifecycles (σ₄ σ₆ : Type) where
  v4 : Lifecycle σ₄
  v6 : Lifecycle σ₆

namespace Manager

variable {σ₄ σ₆ : Type}

/-- The manager before anything happened, with processors in the given states. -/
def fresh (p₄ : σ₄) (p₆ : σ₆) : Manager σ₄ σ₆ := ⟨{ processor := p₄ }, { processor := p₆ }⟩

/-- The tracker of a family. -/
def tracker (m : Manager σ₄ σ₆) : Family → Tracker
  | .v4 => m.v4.tracker
  | .v6 => m.v6.tracker

/-- Changes the tracker of a family behind its processor's back. -/
def onTracker (m : Manager σ₄ σ₆) (family : Family) (f : Tracker → Tracker) : Manager σ₄ σ₆ :=
  match family with
  | .v4 => { m with v4 := { m.v4 with tracker := f m.v4.tracker } }
  | .v6 => { m with v6 := { m.v6 with tracker := f m.v6.tracker } }

/-- An operation of the agent of a family, whatever its processor is. -/
def onAgent {α : Type} (l : Lifecycles σ₄ σ₆) (m : Manager σ₄ σ₆) (family : Family)
    (f : ∀ {σ : Type}, Lifecycle σ → Agent σ → α × Agent σ) : α × Manager σ₄ σ₆ :=
  match family with
  | .v4 => let (answer, a) := f l.v4 m.v4; (answer, { m with v4 := a })
  | .v6 => let (answer, a) := f l.v6 m.v6; (answer, { m with v6 := a })

/-- Sets the global record of a family. -/
def updateGlobal (l : Lifecycles σ₄ σ₆) (m : Manager σ₄ σ₆) (family : Family) (c : GlobalConfig) :
    Except Rejection Unit × Manager σ₄ σ₆ :=
  m.onAgent l family fun l a => a.updateGlobal l c

/-- Removes the global record of a family. -/
def deleteGlobal (l : Lifecycles σ₄ σ₆) (m : Manager σ₄ σ₆) (family : Family) : Manager σ₄ σ₆ :=
  (m.onAgent l family fun l a => ((), a.deleteGlobal l)).2

/-- Sets the record of an interface that has to exist. -/
def createInterface (l : Lifecycles σ₄ σ₆) (m : Manager σ₄ σ₆) (family : Family)
    (c : InterfaceConfig) : Except Rejection Unit × Manager σ₄ σ₆ :=
  m.onAgent l family fun l a => a.createInterface l family c

/-- Sets the record of an interface. -/
def updateInterface (l : Lifecycles σ₄ σ₆) (m : Manager σ₄ σ₆) (family : Family)
    (c : InterfaceConfig) : Except Rejection Unit × Manager σ₄ σ₆ :=
  m.onAgent l family fun l a => a.updateInterface l family c

/-- Removes the record of an interface. -/
def deleteInterface (l : Lifecycles σ₄ σ₆) (m : Manager σ₄ σ₆) (family : Family) (name : String) :
    Manager σ₄ σ₆ :=
  (m.onAgent l family fun l a => ((), a.deleteInterface l name)).2

/-- Applies a configuration for the first time. -/
def init (l : Lifecycles σ₄ σ₆) (m : Manager σ₄ σ₆) (family : Family) (c : FamilyConfig) :
    List Rejection × Manager σ₄ σ₆ :=
  m.onAgent l family fun l a => a.init l family c

/-- Applies the difference between two configurations. -/
def reload (l : Lifecycles σ₄ σ₆) (m : Manager σ₄ σ₆) (family : Family) (old new : FamilyConfig) :
    List Rejection × Manager σ₄ σ₆ :=
  m.onAgent l family fun l a => a.reload l family old new

/-- Takes an event. -/
def notify (l : Lifecycles σ₄ σ₆) (m : Manager σ₄ σ₆) (e : Event) : Manager σ₄ σ₆ :=
  (m.onAgent l e.family fun l a => ((), a.notify l e)).2

/-- Takes events in their order. -/
def notifyAll (l : Lifecycles σ₄ σ₆) (m : Manager σ₄ σ₆) (es : List Event) : Manager σ₄ σ₆ :=
  es.foldl (notify l) m

end Manager

/-! ## Processors -/

/-- The network of a system without sockets: every attempt fails. -/
def V4.Network.offline : V4.Network := ⟨fun _ _ => false, fun _ _ _ => none, fun _ _ => false⟩

/-- Recorders in the place of the protocol processors. -/
def Lifecycles.dryRun : Lifecycles Recorder Recorder :=
  ⟨Recorder.lifecycle .v4, Recorder.lifecycle .v6⟩

/-- The protocol processors of a system without sockets. -/
def Lifecycles.offline : Lifecycles V4.Processor V6.Processor :=
  ⟨V4.Processor.lifecycle (fun _ => false) .offline, V6.Processor.lifecycle fun _ => false⟩

end DhcpRelay
