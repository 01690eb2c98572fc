import DhcpRelay.Proofs.Tracker.Activation

/-!
# Operations of the manager

A run of the manager is a list of operations: what an operator configures, and the events of the
interfaces. Applying a whole configuration, for the first time or as a reload, is the same as
updating and deleting its records one after another (`Manager.apply_eq`), so what an agent does in
a run is a list of elementary operations.

`Agent.Move` says once what an elementary operation can do to an agent: nothing, store a record
behind the processor's back because its interface does not exist, or change the tracker and bring
the processor in line, with the processor told of a new record before or of a removed one after.
-/

namespace DhcpRelay

open Interface (Event Property)

/-! ## Elementary operations -/

namespace Agent

/-- An elementary operation of an agent. -/
inductive Operation where
  | updateGlobal (c : GlobalConfig)
  | deleteGlobal
  /-- Sets the record of an interface that has to exist. -/
  | createInterface (c : InterfaceConfig)
  | updateInterface (c : InterfaceConfig)
  | deleteInterface (name : String)
  | notify (e : Event)
  deriving DecidableEq, Repr

section
variable {σ : Type} {l : Lifecycle σ} {family : Family} {a : Agent σ}

/-- Carries out an elementary operation, accepted or not. -/
def apply (l : Lifecycle σ) (family : Family) (a : Agent σ) : Operation → Agent σ
  | .updateGlobal c => (a.updateGlobal l c).2
  | .deleteGlobal => a.deleteGlobal l
  | .createInterface c => (a.createInterface l family c).2
  | .updateInterface c => (a.updateInterface l family c).2
  | .deleteInterface name => a.deleteInterface l name
  | .notify e => a.notify l e

/-- Carries out elementary operations one after another. -/
def applyAll (l : Lifecycle σ) (family : Family) (a : Agent σ) (os : List Operation) : Agent σ :=
  os.foldl (apply l family) a

/-- Tells the processor of an interface that has no record yet. -/
def announce (l : Lifecycle σ) (a : Agent σ) (name : String) : Agent σ :=
  if a.tracker.configs.contains name then a else a.command l (.createInterface name)

/-- What an elementary operation can do to an agent. -/
inductive Move (l : Lifecycle σ) (a : Agent σ) : Agent σ → Prop where
  /-- The operation is rejected or passed over. -/
  | idle : Move l a a
  /-- The record of an interface that does not exist is stored, and nothing follows. -/
  | store (c : InterfaceConfig) (h : a.tracker.props.index? c.name = none) :
    Move l a { a.announce l c.name with tracker := a.tracker.setInterface c }
  | update (c : InterfaceConfig) : Move l a ((a.announce l c.name).reconcile l (·.setInterface c))
  | remove (name : String) :
    Move l a ((a.reconcile l (·.removeInterface name)).command l (.deleteInterface name))
  /-- The tracker changes in a way that leaves the records of interfaces alone. -/
  | change (family : Family) (o : Tracker.Operation)
    (h : ∀ t : Tracker, (t.apply family o).configs = t.configs) :
    Move l a (a.reconcile l fun t => t.apply family o)

end

end Agent

/-! ## Records of interfaces -/

namespace Tracker

section
variable (t : Tracker)

@[simp] theorem configs_setGlobal (c : GlobalConfig) : (t.setGlobal c).configs = t.configs := by
  rw [setGlobal, configs_rebuild]

@[simp] theorem configs_clearGlobal : t.clearGlobal.configs = t.configs := rfl

@[simp] theorem configs_reevaluateName (name : String) :
    (t.reevaluateName name).configs = t.configs := by
  unfold reevaluateName; split <;> simp

@[simp] theorem configs_setInterface (c : InterfaceConfig) :
    (t.setInterface c).configs = t.configs.insert c.name c := by
  rw [setInterface, configs_reevaluateName]

@[simp] theorem configs_removeInterface (name : String) :
    (t.removeInterface name).configs = t.configs.erase name := by
  rw [removeInterface, configs_reevaluateName]

@[simp] theorem configs_interfaceCreated (family : Family) (p : Property) :
    (t.interfaceCreated family p).configs = t.configs := by
  rw [interfaceCreated_eq]
  unfold reevaluateEvicted
  split <;> split <;> simp

@[simp] theorem configs_onTables (r : Reach)
    (f : Interface.PropertyTable → Interface.PropertyTable) :
    (t.onTables r f).configs = t.configs := by
  cases r <;> rfl

@[simp] theorem configs_interfaceDeleted (family : Family) (i : Int) (address : Option IpAddress) :
    (t.interfaceDeleted family i address).configs = t.configs := by
  simp [interfaceDeleted]

@[simp] theorem configs_interfaceStateChanged (family : Family) (i : Int) (up : Bool)
    (address : Option IpAddress) :
    (t.interfaceStateChanged family i up address).configs = t.configs := by
  simp [interfaceStateChanged]

/-- Storing the record of an interface that does not exist activates nothing. -/
theorem active_setInterface_of_unknown {c : InterfaceConfig} (h : t.props.index? c.name = none) :
    (t.setInterface c).active = t.active := by
  simp [setInterface, reevaluateName, h]

end

end Tracker

/-! ## Moves -/

namespace Agent

section
variable {σ : Type} {l : Lifecycle σ} {family : Family} {a : Agent σ}

/-- Commands leave the tracker alone. -/
@[simp] theorem tracker_commands (l : Lifecycle σ) (a : Agent σ) (cs : List Command) :
    (a.commands l cs).tracker = a.tracker := by
  unfold commands
  induction cs generalizing a with
  | nil => rfl
  | cons c cs ih => exact ih (a.command l c)

/-- A reconciliation leaves the changed tracker. -/
@[simp] theorem tracker_reconcile (l : Lifecycle σ) (a : Agent σ) (change : Tracker → Tracker) :
    (a.reconcile l change).tracker = change a.tracker := by
  simp only [reconcile]
  split
  · rfl
  · split
    · exact tracker_commands l _ _
    · exact (tracker_commands l _ _).trans (tracker_commands l _ _)

/-- The processor is told of a new record before the tracker changes. -/
@[simp] theorem tracker_announce (name : String) : (a.announce l name).tracker = a.tracker := by
  unfold announce; split <;> rfl

/-- A record that breaks a rule changes nothing. -/
theorem updateInterface_of_error {c : InterfaceConfig} {e : Rejection}
    (h : a.tracker.validateInterface family c = .error e) :
    a.updateInterface l family c = (.error e, a) := by
  simp only [updateInterface, h]

/-- A record that meets the rules is stored after its interface is announced, behind the processor's
back if the interface does not exist. -/
theorem updateInterface_of_ok {c : InterfaceConfig}
    (h : a.tracker.validateInterface family c = .ok ()) :
    a.updateInterface l family c = (.ok (),
      if (a.tracker.props.index? c.name).isNone then
        { a.announce l c.name with tracker := a.tracker.setInterface c }
      else (a.announce l c.name).reconcile l (·.setInterface c)) := by
  simp only [updateInterface, h, announce]
  by_cases hc : a.tracker.configs.contains c.name = true
  · simp only [hc, if_true]
    split <;> rfl
  · simp only [hc, if_false, Bool.false_eq_true]
    show (if (a.tracker.props.index? c.name).isNone = true then _ else _) = _
    split <;> rfl

/-- An update of an interface record is a move. -/
theorem updateInterface_move (l : Lifecycle σ) (family : Family) (a : Agent σ)
    (c : InterfaceConfig) : Move l a (a.updateInterface l family c).2 := by
  cases hv : a.tracker.validateInterface family c with
  | error e => rw [updateInterface_of_error hv]; exact .idle
  | ok =>
    rw [updateInterface_of_ok hv]
    by_cases hi : (a.tracker.props.index? c.name).isNone = true
    · simp only [hi, if_true]
      exact .store c (by simpa using hi)
    · simp only [hi, if_false, Bool.false_eq_true]
      exact .update c

/-- An event changes the tracker by one operation, or is passed over. -/
theorem notify_move (l : Lifecycle σ) (a : Agent σ) (e : Event) : Move l a (a.notify l e) := by
  unfold notify
  split
  · exact .idle
  · next address _ =>
    unfold eventChange
    cases e.change with
    | created up =>
      exact .change e.family (.interfaceCreated _) fun t => t.configs_interfaceCreated e.family _
    | deleted =>
      exact .change e.family (.interfaceDeleted _ _) fun t =>
        t.configs_interfaceDeleted e.family _ _
    | stateChanged up =>
      exact .change e.family (.interfaceStateChanged _ _ _) fun t =>
        t.configs_interfaceStateChanged e.family _ _ _

/-- Every elementary operation is a move. -/
theorem apply_move (l : Lifecycle σ) (family : Family) (a : Agent σ) (o : Operation) :
    Move l a (a.apply l family o) := by
  cases o with
  | updateGlobal c =>
    show Move l a (a.updateGlobal l c).2
    unfold updateGlobal
    split
    · exact .idle
    · exact .change family (.setGlobal c) fun t => t.configs_setGlobal c
  | deleteGlobal => exact .change family .clearGlobal fun t => t.configs_clearGlobal
  | createInterface c =>
    show Move l a (a.createInterface l family c).2
    unfold createInterface
    split
    · exact .idle
    · exact updateInterface_move l family a c
  | updateInterface c => exact updateInterface_move l family a c
  | deleteInterface name => exact .remove name
  | notify e => exact notify_move l a e

/-- A move keeps the tracker well-formed. -/
theorem wellFormed_move {a b : Agent σ} (h : a.tracker.WellFormed) (hm : Move l a b) :
    b.tracker.WellFormed := by
  cases hm with
  | idle => exact h
  | store c => exact h.setInterface c
  | update c =>
    rw [tracker_reconcile, tracker_announce]
    exact h.setInterface c
  | remove name =>
    show (a.reconcile l _).tracker.WellFormed
    rw [tracker_reconcile]
    exact h.removeInterface name
  | change other o =>
    rw [tracker_reconcile]
    exact h.apply other o

/-- What every elementary operation keeps in the tracker, all of them keep one after another. -/
theorem tracker_applyAll {P : Tracker → Prop}
    (hstep : ∀ (a : Agent σ) (o : Operation), P a.tracker → P (a.apply l family o).tracker)
    (h : P a.tracker) (os : List Operation) : P (a.applyAll l family os).tracker := by
  induction os generalizing a with
  | nil => exact h
  | cons o os ih => exact ih (hstep a o h)

/-- An elementary operation keeps the tracker well-formed. -/
theorem wellFormed_apply (l : Lifecycle σ) (family : Family) (a : Agent σ) (o : Operation)
    (h : a.tracker.WellFormed) : (a.apply l family o).tracker.WellFormed :=
  wellFormed_move h (apply_move l family a o)

/-- Elementary operations keep the tracker well-formed. -/
theorem wellFormed_applyAll {a : Agent σ} (h : a.tracker.WellFormed) (os : List Operation) :
    (a.applyAll l family os).tracker.WellFormed :=
  tracker_applyAll (wellFormed_apply l family) h os

/-! ## Configurations as a whole -/

namespace Loading

/-- An answer of an update leaves its agent. -/
@[simp] theorem agent_take (s : Loading σ) (r : Except Rejection Unit × Agent σ) :
    (s.take r).agent = r.2 := by
  obtain ⟨answer, agent⟩ := r
  cases answer <;> rfl

/-- Records that are set one after another are so many updates. -/
theorem agent_interfaces (s : Loading σ) (cs : List InterfaceConfig) :
    (s.interfaces l family cs).agent =
      s.agent.applyAll l family (cs.map .updateInterface) := by
  unfold interfaces
  induction cs generalizing s with
  | nil => rfl
  | cons c cs ih =>
    rw [List.foldl_cons, ih, agent_take]
    rfl

/-- Records that are removed one after another are so many deletions. -/
theorem agent_delete (family : Family) (s : Loading σ) (names : List String) :
    (s.delete l names).agent = s.agent.applyAll l family (names.map .deleteInterface) := by
  simp only [delete, applyAll, List.foldl_map]
  rfl

end Loading

theorem applyAll_append (l : Lifecycle σ) (family : Family) (a : Agent σ)
    (os ps : List Operation) :
    a.applyAll l family (os ++ ps) = (a.applyAll l family os).applyAll l family ps :=
  List.foldl_append

end

/-- The elementary operations of a first configuration. -/
def initParts (c : FamilyConfig) : List Operation :=
  c.global.toList.map .updateGlobal ++ c.interfaces.map .updateInterface

/-- The elementary operations on the global record in a reload. -/
def reloadGlobalParts : Option GlobalConfig → Option GlobalConfig → List Operation
  | some _, none => [.deleteGlobal]
  | none, some global => [.updateGlobal global]
  | some before, some global => if before = global then [] else [.updateGlobal global]
  | none, none => []

/-- The elementary operations of a reload. -/
def reloadParts (old new : FamilyConfig) : List Operation :=
  reloadGlobalParts old.global new.global ++
    ((old.interfaces.filter fun c => (new.find? c.name).isNone).map (·.name)).map
      .deleteInterface ++
    (new.interfaces.filter fun c => old.find? c.name ≠ some c).map .updateInterface

section
variable {σ : Type} {l : Lifecycle σ} {family : Family} {a : Agent σ}

/-- Applying a configuration for the first time updates its records one after another. -/
theorem init_eq_applyAll (l : Lifecycle σ) (family : Family) (a : Agent σ) (c : FamilyConfig) :
    (a.init l family c).2 = a.applyAll l family (initParts c) := by
  simp only [init, Loading.result, Loading.agent_interfaces, initParts, applyAll_append]
  cases c.global with
  | none => rfl
  | some g => simp [Loading.global, applyAll, apply]

/-- The global part of a reload is one elementary operation at most. -/
theorem agent_reloadGlobal (l : Lifecycle σ) (family : Family) (a : Agent σ)
    (old new : Option GlobalConfig) :
    (a.reloadGlobal l old new).agent = a.applyAll l family (reloadGlobalParts old new) := by
  unfold reloadGlobal reloadGlobalParts
  cases old with
  | none =>
    cases new with
    | none => rfl
    | some g => simp [Loading.global, applyAll, apply]
  | some before =>
    cases new with
    | none => rfl
    | some g =>
      by_cases h : before = g
      · simp [h, applyAll]
      · simp [h, Loading.global, applyAll, apply]

/-- A reload deletes and updates records one after another. -/
theorem reload_eq_applyAll (l : Lifecycle σ) (family : Family) (a : Agent σ)
    (old new : FamilyConfig) :
    (a.reload l family old new).2 = a.applyAll l family (reloadParts old new) := by
  simp only [reload, Loading.result, Loading.agent_interfaces, reloadParts, applyAll_append]
  rw [Loading.agent_delete family, agent_reloadGlobal l family]

end

end Agent

/-! ## Operations of the manager -/

namespace Manager

/-- What an operator does to the configuration of a family. The global record is created as it is
updated. -/
inductive ConfigOperation where
  | updateGlobal (c : GlobalConfig)
  | deleteGlobal
  | createInterface (c : InterfaceConfig)
  | updateInterface (c : InterfaceConfig)
  | deleteInterface (name : String)
  /-- Applies a configuration for the first time. -/
  | init (c : FamilyConfig)
  /-- Applies the difference between two configurations. -/
  | reload (old new : FamilyConfig)
  deriving DecidableEq

/-- An operation of the manager. -/
inductive Operation where
  | configure (family : Family) (o : ConfigOperation)
  | notify (e : Event)
  deriving DecidableEq

/-- The elementary operations of a change of the configuration. -/
def ConfigOperation.parts : ConfigOperation → List Agent.Operation
  | .updateGlobal c => [.updateGlobal c]
  | .deleteGlobal => [.deleteGlobal]
  | .createInterface c => [.createInterface c]
  | .updateInterface c => [.updateInterface c]
  | .deleteInterface name => [.deleteInterface name]
  | .init c => Agent.initParts c
  | .reload old new => Agent.reloadParts old new

/-- The family that an operation concerns. -/
def Operation.family : Operation → Family
  | .configure family _ => family
  | .notify e => e.family

/-- The elementary operations of an operation. -/
def Operation.parts : Operation → List Agent.Operation
  | .configure _ o => o.parts
  | .notify e => [.notify e]

section
variable {σ₄ σ₆ : Type}

/-- Changes the configuration of a family, as far as the change is accepted. -/
def configure (l : Lifecycles σ₄ σ₆) (m : Manager σ₄ σ₆) (family : Family) :
    ConfigOperation → Manager σ₄ σ₆
  | .updateGlobal c => (m.updateGlobal l family c).2
  | .deleteGlobal => m.deleteGlobal l family
  | .createInterface c => (m.createInterface l family c).2
  | .updateInterface c => (m.updateInterface l family c).2
  | .deleteInterface name => m.deleteInterface l family name
  | .init c => (m.init l family c).2
  | .reload old new => (m.reload l family old new).2

/-- Carries out an operation. -/
def apply (l : Lifecycles σ₄ σ₆) (m : Manager σ₄ σ₆) : Operation → Manager σ₄ σ₆
  | .configure family o => m.configure l family o
  | .notify e => m.notify l e

/-- Carries out operations one after another. -/
def run (l : Lifecycles σ₄ σ₆) (m : Manager σ₄ σ₆) (os : List Operation) : Manager σ₄ σ₆ :=
  os.foldl (apply l) m

/-- The state that an operation of an agent leaves depends only on the state it leaves that
agent in. -/
theorem onAgent_snd_congr {α β : Type} {l : Lifecycles σ₄ σ₆} {m : Manager σ₄ σ₆}
    {family : Family} {f : ∀ {σ : Type}, Lifecycle σ → Agent σ → α × Agent σ}
    {g : ∀ {σ : Type}, Lifecycle σ → Agent σ → β × Agent σ}
    (h : ∀ {σ : Type} (l : Lifecycle σ) (a : Agent σ), (f l a).2 = (g l a).2) :
    (m.onAgent l family f).2 = (m.onAgent l family g).2 := by
  cases family with
  | v4 => simp only [onAgent, h]
  | v6 => simp only [onAgent, h]

/-- An operation carries out its elementary operations on the agent of its family. -/
theorem apply_eq (l : Lifecycles σ₄ σ₆) (m : Manager σ₄ σ₆) (o : Operation) :
    m.apply l o =
      (m.onAgent l o.family fun l a => ((), a.applyAll l o.family o.parts)).2 := by
  cases o with
  | notify e => exact onAgent_snd_congr fun _ _ => rfl
  | configure family o =>
    cases o with
    | updateGlobal | deleteGlobal | createInterface | updateInterface | deleteInterface =>
      exact onAgent_snd_congr fun _ _ => rfl
    | init c => exact onAgent_snd_congr fun l a => Agent.init_eq_applyAll l family a c
    | reload old new =>
      exact onAgent_snd_congr fun l a => Agent.reload_eq_applyAll l family a old new

/-- What elementary operations keep in the trackers of their families, operations keep. -/
theorem tracker_apply_of_step {P : Family → Tracker → Prop}
    (hstep : ∀ {σ : Type} (l : Lifecycle σ) (family : Family) (a : Agent σ) (o : Agent.Operation),
      P family a.tracker → P family (a.apply l family o).tracker)
    {l : Lifecycles σ₄ σ₆} {m : Manager σ₄ σ₆} (h : ∀ family, P family (m.tracker family))
    (o : Operation) (family : Family) : P family ((m.apply l o).tracker family) := by
  rw [apply_eq]
  generalize o.family = other
  cases other <;> cases family
  · exact Agent.tracker_applyAll (hstep l.v4 .v4) (h .v4) o.parts
  · exact h .v6
  · exact h .v4
  · exact Agent.tracker_applyAll (hstep l.v6 .v6) (h .v6) o.parts

/-- What elementary operations keep in the trackers of their families, runs keep. -/
theorem tracker_run_of_step {P : Family → Tracker → Prop}
    (hstep : ∀ {σ : Type} (l : Lifecycle σ) (family : Family) (a : Agent σ) (o : Agent.Operation),
      P family a.tracker → P family (a.apply l family o).tracker)
    {l : Lifecycles σ₄ σ₆} {m : Manager σ₄ σ₆} (h : ∀ family, P family (m.tracker family))
    (os : List Operation) (family : Family) : P family ((m.run l os).tracker family) := by
  induction os generalizing m with
  | nil => exact h family
  | cons o os ih => exact ih (tracker_apply_of_step hstep h o)

end

end Manager

end DhcpRelay
