import DhcpRelay.Manager.Basic
import DhcpRelay.Proofs.Manager.Operation
import DhcpRelay.Proofs.Processor.Recorder

/-!
# How a recorder follows the active set

What a reconciliation does to a recorder, in three equations: with no active index it is stopped
(`Agent.reconcile_of_nil`); otherwise the indices that are gone are deactivated, and then its start
fails (`Agent.reconcile_of_failStart`) or the indices that arrived are activated
(`Agent.reconcile_of_started`).

Apart from reconciliations an operation tells a recorder at most that an interface has a record or
no longer has one (`Agent.Quiet`), so every elementary operation is quiet or one reconciliation
between quiet steps (`Agent.apply_follows`).
-/

namespace DhcpRelay

namespace Agent

/-! ## Reconciliations -/

/-- The indices that ceased to be active. -/
def gone (before after : List Int) : List Int := before.filter (· ∉ after)

/-- The indices of which a processor is told after its start: those that became active, or all if it
was not serving. -/
def arrived (running : Bool) (before after : List Int) : List Int :=
  after.filter fun i => !running || i ∉ before

section
variable {before after : List Int} {i : Int}

@[simp] theorem mem_gone : i ∈ gone before after ↔ i ∈ before ∧ i ∉ after := by simp [gone]

@[simp] theorem mem_arrived {running : Bool} :
    i ∈ arrived running before after ↔ i ∈ after ∧ (running = true → i ∉ before) := by
  simp only [arrived, List.mem_filter, Bool.or_eq_true, Bool.not_eq_true', decide_eq_true_eq]
  cases running <;> simp

theorem nodup_gone (h : before.Nodup) : (gone before after).Nodup := List.Pairwise.filter _ h

theorem nodup_arrived {running : Bool} (h : after.Nodup) : (arrived running before after).Nodup :=
  List.Pairwise.filter _ h

end

section
variable {family : Family} {a : Agent Recorder} {change : Tracker → Tracker}

/-- Commands reach the recorder and nothing else. -/
theorem commands_lifecycle (family : Family) (a : Agent Recorder) (cs : List Command) :
    a.commands (Recorder.lifecycle family) cs =
      { a with processor := a.processor.performAll cs } := by
  unfold commands
  induction cs generalizing a with
  | nil => rfl
  | cons c cs ih =>
    rw [List.foldl_cons, ih]
    rfl

/-- The recorder of an agent after it was told of the indices that are gone. -/
def dismissed (a : Agent Recorder) (after : List Int) : Recorder :=
  a.processor.performAll ((gone a.tracker.activeIndices after).map .deactivate)

/-- Deactivations do not end the service. -/
theorem steady_dismissed (a : Agent Recorder) (after : List Int) :
    a.processor.Steady (a.dismissed after) :=
  Recorder.steady_performAll (by simp)

/-- An index is activated after that if it was and is not gone. -/
theorem mem_held_dismissed {after : List Int} {i : Int} : i ∈ (a.dismissed after).held.keys ↔
    (i ∈ a.tracker.activeIndices → i ∈ after) ∧ i ∈ a.processor.held.keys := by
  rw [dismissed, Recorder.mem_held_deactivate, mem_gone, not_and, Decidable.not_not]

/-- The recorder of an agent after it was told of the indices that are gone, has started, and was
told of those that arrived. -/
def resumed (a : Agent Recorder) (after : List Int) : Recorder :=
  (a.dismissed after).begun.performAll
    ((arrived a.processor.running a.tracker.activeIndices after).map .activate)

/-- Activations do not end the service. -/
theorem steady_resumed (a : Agent Recorder) (after : List Int) :
    (a.dismissed after).begun.Steady (a.resumed after) :=
  Recorder.steady_performAll (by simp)

/-- An index is activated after that if it was and is not gone, or if it arrived. -/
theorem mem_held_resumed {after : List Int} {i : Int} : i ∈ (a.resumed after).held.keys ↔
    (i ∈ after ∧ (a.processor.running = true → i ∉ a.tracker.activeIndices)) ∨
      (i ∈ a.tracker.activeIndices → i ∈ after) ∧ i ∈ a.processor.held.keys := by
  rw [resumed, Recorder.mem_held_activate, mem_arrived]
  exact or_congr_right mem_held_dismissed

/-- With no active index left the recorder is stopped. -/
theorem reconcile_of_nil (h : (change a.tracker).activeIndices = []) :
    a.reconcile (Recorder.lifecycle family) change =
      ⟨change a.tracker, a.processor.perform .stop⟩ := by
  simp only [reconcile, h, List.isEmpty_nil, if_true]
  rfl

/-- If its start fails, a recorder is only told of the indices that are gone. -/
theorem reconcile_of_failStart (h : (change a.tracker).activeIndices ≠ [])
    (hf : a.processor.failStart = true) :
    a.reconcile (Recorder.lifecycle family) change =
      ⟨change a.tracker, (a.dismissed (change a.tracker).activeIndices).record .start⟩ := by
  have hne : (change a.tracker).activeIndices.isEmpty = false := by simpa using h
  have hstart := Recorder.start_of_failStart family
    ((a.steady_dismissed (change a.tracker).activeIndices).failStart_eq.trans hf)
  simp only [dismissed, gone] at hstart ⊢
  simp only [reconcile, hne, Bool.false_eq_true, if_false, commands_lifecycle]
  simp only [Recorder.lifecycle, hstart]

/-- If its start does not fail, a recorder is told of the indices that are gone, starts, and is told
of those that arrived. -/
theorem reconcile_of_started (h : (change a.tracker).activeIndices ≠ [])
    (hf : a.processor.failStart = false) :
    a.reconcile (Recorder.lifecycle family) change =
      ⟨change a.tracker, a.resumed (change a.tracker).activeIndices⟩ := by
  have hne : (change a.tracker).activeIndices.isEmpty = false := by simpa using h
  have hsteady := a.steady_dismissed (change a.tracker).activeIndices
  have hstart := Recorder.start_of_not_failStart family (hsteady.failStart_eq.trans hf)
  have hrun := hsteady.running_eq
  simp only [resumed, dismissed, gone, arrived] at hstart hrun ⊢
  simp only [reconcile, hne, Bool.false_eq_true, if_false, commands_lifecycle]
  simp only [Recorder.lifecycle] at *
  simp only [hstart, hrun]

/-- A reconciliation leaves the records of interfaces alone. -/
@[simp] theorem interfaces_reconcile (family : Family) (a : Agent Recorder)
    (change : Tracker → Tracker) :
    (a.reconcile (Recorder.lifecycle family) change).processor.interfaces =
      a.processor.interfaces := by
  have hgone : ∀ after, (a.dismissed after).interfaces = a.processor.interfaces := fun after =>
    Recorder.interfaces_deactivate _ _
  by_cases h : (change a.tracker).activeIndices = []
  · rw [reconcile_of_nil h]
    rfl
  · cases hf : a.processor.failStart with
    | true => rw [reconcile_of_failStart h hf]; exact hgone _
    | false =>
      rw [reconcile_of_started h hf]
      exact (Recorder.interfaces_activate _ _).trans (hgone _)

/-- A reconciliation does not change whether starts fail. -/
theorem failStart_reconcile (family : Family) (a : Agent Recorder) (change : Tracker → Tracker) :
    (a.reconcile (Recorder.lifecycle family) change).processor.failStart =
      a.processor.failStart := by
  by_cases h : (change a.tracker).activeIndices = []
  · rw [reconcile_of_nil h]
    rfl
  · have hdismissed := a.steady_dismissed (change a.tracker).activeIndices
    have hresumed := a.steady_resumed (change a.tracker).activeIndices
    cases hf : a.processor.failStart with
    | true => rw [reconcile_of_failStart h hf]; exact hdismissed.failStart_eq.trans hf
    | false =>
      rw [reconcile_of_started h hf]
      exact hresumed.failStart_eq.trans (hdismissed.failStart_eq.trans hf)

/-- A reconciliation adds to the log. -/
theorem calls_reconcile (family : Family) (a : Agent Recorder) (change : Tracker → Tracker) :
    a.processor.calls <+: (a.reconcile (Recorder.lifecycle family) change).processor.calls := by
  have hdismissed : ∀ after, a.processor.calls <+: (a.dismissed after).calls := fun after => by
    rw [dismissed, Recorder.calls_performAll]
    exact List.prefix_append _ _
  by_cases h : (change a.tracker).activeIndices = []
  · rw [reconcile_of_nil h, Recorder.calls_perform]
    exact List.prefix_append _ _
  · cases hf : a.processor.failStart with
    | true =>
      rw [reconcile_of_failStart h hf]
      exact (hdismissed _).trans (List.prefix_append _ _)
    | false =>
      rw [reconcile_of_started h hf, resumed, Recorder.calls_performAll]
      exact (hdismissed _).trans ((List.prefix_append _ _).trans (List.prefix_append _ _))

end

/-! ## Quiet steps -/

/-- Nothing happened but that the recorder may have been told that an interface has a record, or no
longer has one. -/
structure Quiet (a b : Agent Recorder) : Prop where
  active_eq : b.tracker.activeIndices = a.tracker.activeIndices
  told : b.processor = a.processor ∨
    ∃ name, b.processor = a.processor.perform (.createInterface name) ∨
      b.processor = a.processor.perform (.deleteInterface name)

section
variable {a b : Agent Recorder} {family : Family}

theorem Quiet.refl (a : Agent Recorder) : a.Quiet a := ⟨rfl, .inl rfl⟩

/-- A quiet step does not touch the service. -/
theorem Quiet.steady (h : a.Quiet b) : a.processor.Steady b.processor := by
  rcases h.told with ht | ⟨name, ht | ht⟩ <;> rw [ht]
  · exact .refl _
  · exact Recorder.steady_perform (by simp)
  · exact Recorder.steady_perform (by simp)

/-- A quiet step does not touch the activated indices. -/
theorem Quiet.held_eq (h : a.Quiet b) : b.processor.held = a.processor.held := by
  rcases h.told with ht | ⟨name, ht | ht⟩ <;> rw [ht] <;> rfl

/-- A quiet step starts nothing. -/
theorem Quiet.calls_eq (h : a.Quiet b) :
    ∃ new, b.processor.calls = a.processor.calls ++ new ∧ .start ∉ new := by
  rcases h.told with ht | ⟨name, ht | ht⟩ <;> rw [ht]
  · exact ⟨[], by simp, by simp⟩
  · exact ⟨_, Recorder.calls_perform, by simp⟩
  · exact ⟨_, Recorder.calls_perform, by simp⟩

/-- A faithful recorder stays so in a quiet step. -/
theorem Quiet.faithful (h : a.Quiet b) (hf : a.processor.Faithful) : b.processor.Faithful := by
  rcases h.told with ht | ⟨name, ht | ht⟩ <;> rw [ht]
  · exact hf
  · exact hf.perform trivial
  · exact hf.perform trivial

/-- Telling the recorder of a new record is quiet. -/
theorem quiet_announce (family : Family) (a : Agent Recorder) (name : String) :
    a.Quiet (a.announce (Recorder.lifecycle family) name) := by
  refine ⟨by rw [tracker_announce], ?_⟩
  unfold announce
  split
  · exact .inl rfl
  · exact .inr ⟨name, .inl rfl⟩

/-- A move is quiet, or a reconciliation between quiet steps. -/
theorem Move.follows (h : Move (Recorder.lifecycle family) a b) :
    a.Quiet b ∨ ∃ a' change, a.Quiet a' ∧
      (a'.reconcile (Recorder.lifecycle family) change).Quiet b := by
  cases h with
  | idle => exact .inl (.refl a)
  | store c hc =>
    refine .inl ⟨?_, (quiet_announce family a c.name).told⟩
    simp only [Tracker.activeIndices, a.tracker.active_setInterface_of_unknown hc]
  | update c =>
    exact .inr ⟨_, (·.setInterface c), quiet_announce family a c.name, .refl _⟩
  | remove name =>
    exact .inr ⟨a, (·.removeInterface name), .refl a, rfl, .inr ⟨name, .inr rfl⟩⟩
  | change other o => exact .inr ⟨a, fun t => t.apply other o, .refl a, .refl _⟩

/-- An elementary operation is quiet, or a reconciliation between quiet steps. -/
theorem apply_follows (family : Family) (a : Agent Recorder) (o : Operation) :
    a.Quiet (a.apply (Recorder.lifecycle family) family o) ∨
      ∃ a' change, a.Quiet a' ∧ (a'.reconcile (Recorder.lifecycle family) change).Quiet
        (a.apply (Recorder.lifecycle family) family o) :=
  (apply_move (Recorder.lifecycle family) family a o).follows

end

end Agent

/-! ## Recorders of both families -/

namespace Manager

/-- The agent of a family. -/
def agent {σ : Type} (m : Manager σ σ) : Family → Agent σ
  | .v4 => m.v4
  | .v6 => m.v6

/-- The elementary operations on the agent of a family in an operation. -/
def Operation.partsFor (family : Family) (o : Operation) : List Agent.Operation :=
  if o.family = family then o.parts else []

/-- An operation of a manager of recorders carries out its elementary operations on the agent of its
family, and nothing on the other one. -/
theorem agent_apply (m : Manager Recorder Recorder) (o : Operation) (family : Family) :
    (m.apply .dryRun o).agent family =
      (m.agent family).applyAll (Recorder.lifecycle family) family (o.partsFor family) := by
  rw [apply_eq, Operation.partsFor]
  generalize o.family = other
  cases other <;> cases family <;> rfl

/-- A run of a manager of recorders carries out its elementary operations on the agent of each
family. -/
theorem agent_run (m : Manager Recorder Recorder) (os : List Operation) (family : Family) :
    (m.run .dryRun os).agent family =
      (m.agent family).applyAll (Recorder.lifecycle family) family
        (os.flatMap (·.partsFor family)) := by
  induction os generalizing m with
  | nil => rfl
  | cons o os ih =>
    rw [run, List.foldl_cons, ← run, ih, agent_apply, List.flatMap_cons, Agent.applyAll_append]

end Manager

end DhcpRelay
