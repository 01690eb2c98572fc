import DhcpRelay.Proofs.Manager.Commuting

/-!
# Operations that are repeated

An operation that is carried out a second time finds its work done. Storing a property or a record,
removing one and recording a state are so already in the tables they concern, and the active set
follows from these (`Tracker.WellFormed.apply_apply`). A reconciliation that finds the active set as
it was tells a recorder that is coupled to its tracker no more than to start while it is serving, or
to stop while it is not (`Agent.Coupled.echoes_reconcile`).

Whether a record is accepted depends on the tables alone, which its first arrival left alone, so the
second answer is the first one (`Agent.rejection?_apply`). The answers, the trackers and all that
recorders hold are therefore the same after an operation and after its repetition
(`Manager.repetition_harmless`).
-/

namespace DhcpRelay

open Interface (Event Property PropertyTable)
open Watch (Kind)

/-! ## Trackers -/

namespace Tracker

section
variable {t : Tracker}

/-- What is done to a table again is done already. -/
theorem Operation.onTable_onTable (family : Family) (k : Kind) (o : Operation)
    (table : PropertyTable) :
    o.onTable family k (o.onTable family k table) = o.onTable family k table := by
  cases o with
  | setGlobal | clearGlobal | setInterface | removeInterface => rfl
  | interfaceCreated p =>
    simp only [onTable]
    split
    · exact table.upsert_upsert p
    · rfl
  | interfaceDeleted i address =>
    simp only [onTable]
    split
    · exact table.remove_remove i
    · rfl
  | interfaceStateChanged i up address =>
    simp only [onTable]
    split
    · exact table.setUp_setUp i up
    · rfl

/-- What is done to the records again is done already. -/
theorem records_apply_apply (t : Tracker) (family : Family) (o : Operation) :
    ((t.apply family o).apply family o).global = (t.apply family o).global ∧
      ((t.apply family o).apply family o).configs = (t.apply family o).configs := by
  cases o with
  | setGlobal c => simp [apply]
  | clearGlobal => exact ⟨rfl, rfl⟩
  | setInterface c => simp [apply, SortedTable.insert_insert]
  | removeInterface name => simp [apply, SortedTable.erase_erase]
  | interfaceCreated | interfaceDeleted | interfaceStateChanged =>
    exact records_apply_of_not_configures _ family id

/-- An operation on a well-formed tracker leaves nothing to do for its repetition. -/
theorem WellFormed.apply_apply (h : t.WellFormed) (family : Family) (o : Operation) :
    (t.apply family o).apply family o = t.apply family o := by
  obtain ⟨hglobal, hconfigs⟩ := t.records_apply_apply family o
  have htables : ∀ k, ((t.apply family o).apply family o).table k = (t.apply family o).table k :=
    fun k => by rw [table_apply, table_apply, Operation.onTable_onTable]
  exact ((h.apply family o).apply family o).ext (h.apply family o) htables hglobal hconfigs

end

end Tracker

/-! ## Recorders -/

/-- A call that neither activates nor deactivates an interface and makes no record of one. -/
def Call.Harmless : Call → Prop
  | .start | .command .stop | .command (.deleteInterface _) => True
  | .command (.createInterface _) | .command (.activate _) | .command (.deactivate _) => False

namespace Agent

/-- Nothing happened but that the recorder was told what makes no difference to it: the tracker is
the same, and so is all of the recorder but its log. -/
structure Echoes (a b : Agent Recorder) : Prop where
  tracker_eq : b.tracker = a.tracker
  told : ∃ new, b.processor = { a.processor with calls := a.processor.calls ++ new } ∧
    ∀ c ∈ new, c.Harmless

section
variable {a b : Agent Recorder} {family : Family}

theorem Echoes.refl (a : Agent Recorder) : a.Echoes a :=
  ⟨rfl, [], by rw [List.append_nil], fun _ h => absurd h List.not_mem_nil⟩

/-- A reconciliation that leaves the tracker as it is finds a coupled recorder as it is to be: it is
stopped though it is not serving, or started though it is. -/
theorem Coupled.echoes_reconcile (h : a.Coupled) {change : Tracker → Tracker}
    (hsame : change a.tracker = a.tracker) :
    a.Echoes (a.reconcile (Recorder.lifecycle family) change) := by
  by_cases hnil : a.tracker.activeIndices = []
  · have hrunning : a.processor.running = false := by
      rw [← Bool.not_eq_true, h.running_iff, not_not]
      exact hnil
    have hheld : ∅ = a.processor.held :=
      SortedTable.ext_keys (by rw [h.held_eq, hnil, SortedTable.keys_empty])
    rw [reconcile_of_nil (by rw [hsame, hnil]), hsame]
    refine ⟨rfl, [.command .stop], ?_, by simp [Call.Harmless]⟩
    simp [Recorder.perform, Recorder.record, hrunning, hheld]
  · have hrunning : a.processor.running = true := h.running_iff.2 hnil
    have hgone : gone a.tracker.activeIndices a.tracker.activeIndices = [] := by simp [gone]
    have harrived : arrived true a.tracker.activeIndices a.tracker.activeIndices = [] := by
      simp [arrived]
    rw [reconcile_of_started (by rwa [hsame]) h.failStart_eq, hsame]
    refine ⟨rfl, [.start], ?_, by simp [Call.Harmless]⟩
    simp [Agent.resumed, Agent.dismissed, hgone, hrunning, harrived, Recorder.performAll,
      Recorder.begun]

/-- A reconciliation with an operation on the tracker is repeated. -/
theorem Coupled.echoes_reconcile_apply (h : a.Coupled) (hwell : a.tracker.WellFormed)
    (other : Family) (o : Tracker.Operation) :
    let b := a.reconcile (Recorder.lifecycle family) fun t => t.apply other o
    b.Echoes (b.reconcile (Recorder.lifecycle family) fun t => t.apply other o) := by
  intro b
  have hsame : b.tracker.apply other o = b.tracker := by
    rw [tracker_reconcile]
    exact hwell.apply_apply other o
  exact h.reconcile.echoes_reconcile hsame

/-- An update of an interface record is repeated: it is rejected again, or the interface has been
announced and the record is there. -/
theorem Coupled.echoes_updateInterface (h : a.Coupled) (hwell : a.tracker.WellFormed)
    (family : Family) (c : InterfaceConfig) :
    let b := (a.updateInterface (Recorder.lifecycle family) family c).2
    b.Echoes (b.updateInterface (Recorder.lifecycle family) family c).2 := by
  intro b
  have hcoupled : b.Coupled := (h.apply family (.updateInterface c)).1
  have htable := a.table_updateInterface (Recorder.lifecycle family) family c
  have hvalidate : b.tracker.validateInterface family c = a.tracker.validateInterface family c :=
    Tracker.validateInterface_congr (htable .linkLocal) family c
  cases hv : a.tracker.validateInterface family c with
  | error e =>
    rw [updateInterface_of_error (hvalidate.trans hv)]
    exact .refl b
  | ok =>
    have htracker : b.tracker = a.tracker.setInterface c := by
      rw [tracker_updateInterface, Tracker.rejection?, hv]
      rfl
    have hstored : b.tracker.setInterface c = b.tracker := by
      rw [htracker]
      exact hwell.apply_apply family (.setInterface c)
    have hannounced : b.announce (Recorder.lifecycle family) c.name = b := by
      have hmem : c.name ∈ b.tracker.configs.keys := by
        rw [htracker, Tracker.configs_setInterface]
        exact SortedTable.mem_keys_insert.2 (.inl rfl)
      rw [announce, if_pos (SortedTable.contains_iff_mem_keys.2 hmem)]
    rw [updateInterface_of_ok (hvalidate.trans hv), hannounced]
    dsimp only
    split
    · rw [hstored]
      exact .refl b
    · exact hcoupled.echoes_reconcile hstored

/-- Deleting the record of an interface is repeated: the recorder is told again that the interface
has no record. -/
theorem Coupled.echoes_deleteInterface (h : a.Coupled) (hwell : a.tracker.WellFormed)
    (family : Family) (name : String) :
    let b := a.deleteInterface (Recorder.lifecycle family) name
    b.Echoes (b.deleteInterface (Recorder.lifecycle family) name) := by
  intro b
  have hcoupled : b.Coupled := (h.apply family (.deleteInterface name)).1
  have hremoved : b.tracker.removeInterface name = b.tracker := by
    rw [tracker_deleteInterface]
    exact hwell.apply_apply family (.removeInterface name)
  have herased : b.processor.interfaces.erase name = b.processor.interfaces :=
    SortedTable.erase_erase _ name
  have hechoes : b.Echoes (b.reconcile (Recorder.lifecycle family) (·.removeInterface name)) :=
    hcoupled.echoes_reconcile hremoved
  obtain ⟨new, hprocessor, hnew⟩ := hechoes.told
  refine ⟨(tracker_deleteInterface _ b name).trans hremoved,
    new ++ [.command (.deleteInterface name)], ?_, ?_⟩
  · rw [deleteInterface, command, hprocessor]
    simp [Recorder.lifecycle, Recorder.perform, Recorder.record, herased]
  · intro c hc
    rcases List.mem_append.1 hc with hc | hc
    · exact hnew c hc
    · rw [List.mem_singleton.1 hc]
      trivial

/-- An event means an operation on the tracker of its family. -/
theorem exists_eventChange_eq (e : Event) (address : Option Cidr) :
    ∃ o : Tracker.Operation, eventChange e address = fun t => t.apply e.family o := by
  unfold eventChange
  cases e.change with
  | created up => exact ⟨.interfaceCreated _, rfl⟩
  | deleted => exact ⟨.interfaceDeleted _ _, rfl⟩
  | stateChanged up => exact ⟨.interfaceStateChanged _ _ _, rfl⟩

/-- An elementary operation on a coupled agent is repeated. -/
theorem Coupled.echoes_apply (h : a.Coupled) (hwell : a.tracker.WellFormed) (family : Family)
    (o : Operation) :
    let b := a.apply (Recorder.lifecycle family) family o
    b.Echoes (b.apply (Recorder.lifecycle family) family o) := by
  intro b
  cases o with
  | updateGlobal c =>
    show Echoes (a.updateGlobal _ c).2 ((a.updateGlobal _ c).2.updateGlobal _ c).2
    unfold updateGlobal
    cases c.validate with
    | error e => exact .refl a
    | ok => exact h.echoes_reconcile_apply hwell family (.setGlobal c)
  | deleteGlobal => exact h.echoes_reconcile_apply hwell family .clearGlobal
  | createInterface c =>
    have hindex : b.tracker.props.index? c.name = a.tracker.props.index? c.name :=
      congrArg (·.index? c.name) (Agent.table_apply (o := .createInterface c) trivial .main)
    show b.Echoes (b.createInterface _ family c).2
    have hb : b = (a.createInterface (Recorder.lifecycle family) family c).2 := rfl
    unfold createInterface at hb ⊢
    rw [hindex]
    split
    · exact .refl b
    · next hknown =>
      rw [if_neg hknown] at hb
      rw [hb]
      exact h.echoes_updateInterface hwell family c
  | updateInterface c => exact h.echoes_updateInterface hwell family c
  | deleteInterface name => exact h.echoes_deleteInterface hwell family name
  | notify e =>
    show Echoes (a.notify _ e) ((a.notify _ e).notify _ e)
    unfold notify
    cases eventAddress? e with
    | none => exact .refl a
    | some address =>
      obtain ⟨change, hchange⟩ := exists_eventChange_eq e address
      simp only [hchange]
      exact h.echoes_reconcile_apply hwell e.family change

end

/-! ## Answers -/

section
variable {σ : Type}

/-- The answer to the record of an interface that has to exist is that it does not, or that of the
check of the record. -/
theorem answer_createInterface (l : Lifecycle σ) (family : Family) (a : Agent σ)
    (c : InterfaceConfig) : (a.createInterface l family c).1 =
      if (a.tracker.props.index? c.name).isNone then .error (.unknownInterface family c.name)
      else a.tracker.validateInterface family c := by
  unfold createInterface
  split
  · rfl
  · exact answer_updateInterface l family a c

/-- An elementary operation that is repeated is rejected as it was, or accepted again. -/
theorem rejection?_apply (l : Lifecycle σ) (family : Family) (a : Agent σ) (o : Operation) :
    (a.apply l family o).rejection? l family o = a.rejection? l family o := by
  have hvalidate (o : Operation) (ho : o.Configures) (c : InterfaceConfig) :
      (a.apply l family o).tracker.validateInterface family c =
        a.tracker.validateInterface family c :=
    Tracker.validateInterface_congr (table_apply ho .linkLocal) family c
  cases o with
  | updateGlobal c => simp only [rejection?, answer_updateGlobal]
  | createInterface c =>
    have hindex : (a.apply l family (.createInterface c)).tracker.props.index? c.name =
        a.tracker.props.index? c.name :=
      congrArg (·.index? c.name) (table_apply (o := .createInterface c) trivial .main)
    simp only [rejection?, answer_createInterface, hindex, hvalidate (.createInterface c) trivial]
  | updateInterface c =>
    simp only [rejection?, answer_updateInterface, hvalidate (.updateInterface c) trivial]
  | deleteGlobal | deleteInterface | notify => rfl

end

end Agent

/-! ## Operations of the manager -/

namespace Manager

/-- An elementary operation as one of the manager, on a family unless it is an event, which names
its own. -/
def Operation.single (family : Family) : Agent.Operation → Operation
  | .updateGlobal c => .configure family (.updateGlobal c)
  | .deleteGlobal => .configure family .deleteGlobal
  | .createInterface c => .configure family (.createInterface c)
  | .updateInterface c => .configure family (.updateInterface c)
  | .deleteInterface name => .configure family (.deleteInterface name)
  | .notify e => .notify e

@[simp] theorem Operation.parts_single (family : Family) (o : Agent.Operation) :
    (single family o).parts = [o] := by
  cases o <;> rfl

/-- What an operation on recorders answers is what is rejected of its elementary operations by the
agent of its family. -/
theorem rejections_dryRun (m : Manager Recorder Recorder) (o : Operation) :
    m.rejections .dryRun o =
      (m.agent o.family).rejections (Recorder.lifecycle o.family) o.family o.parts := by
  rw [rejections_eq]
  generalize o.family = family
  cases family <;> rfl

/-- An operation of the manager that is issued twice in a row does no more than if it is issued
once. After any operations on recorders whose starts do not fail, it is answered alike both times,
and the second time leaves both families as the first one did, with their tables, records and active
sets, and with all that the recorders hold and have counted. In their logs no interface is
activated, deactivated or created the second time. -/
theorem repetition_harmless (os : List Operation) (family : Family) (o : Agent.Operation) :
    let m := (fresh {} {}).run .dryRun os
    let once := m.apply .dryRun (.single family o)
    let twice := once.apply .dryRun (.single family o)
    once.rejections .dryRun (.single family o) = m.rejections .dryRun (.single family o) ∧
      ∀ f : Family,
        (twice.agent f).tracker = (once.agent f).tracker ∧
        ∃ new : List Call,
          (twice.agent f).processor = { (once.agent f).processor with
            calls := (once.agent f).processor.calls ++ new } ∧
          ∀ c ∈ new, c.Harmless := by
  intro m once twice
  have hparts (f : Family) (hf : (Operation.single family o).family = f) :
      (Operation.single family o).partsFor f = [o] := by
    rw [Operation.partsFor, if_pos hf, Operation.parts_single]
  constructor
  · rw [rejections_dryRun, rejections_dryRun, Operation.parts_single, agent_apply, hparts _ rfl]
    exact congrArg (·.toList ++ []) (Agent.rejection?_apply ..)
  · intro f
    obtain ⟨hwell, hcoupled, -⟩ := coupled_run os f
    have honce := agent_apply m (.single family o) f
    have htwice := agent_apply once (.single family o) f
    have hechoes : (once.agent f).Echoes (twice.agent f) := by
      by_cases hf : (Operation.single family o).family = f
      · rw [hparts f hf] at honce htwice
        rw [htwice, honce]
        exact hcoupled.echoes_apply hwell f o
      · rw [Operation.partsFor, if_neg hf] at htwice
        rw [htwice]
        exact .refl _
    exact ⟨hechoes.tracker_eq, hechoes.told⟩

end Manager

end DhcpRelay
