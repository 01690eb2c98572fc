import DhcpRelay.Proofs.Manager.Gating
import DhcpRelay.Proofs.Manager.Reload
import DhcpRelay.Proofs.V4.Forwarding
import DhcpRelay.Proofs.V4.Processor

/-!
# Link handles follow activation

Whatever starts and links fail and whenever the receive loop ends, a DHCPv4 processor holds handles
of active interfaces only (`Agent.Linked`). A reconciliation whose start fails activates nothing, so
handles may be missing, and replies open them later; but none outlives its interface's activity,
since what ceases to be active is deactivated before the start.

If nothing fails, the processor holds the handles of just the active interfaces and is serving while
there is one (`Agent.FullyLinked`). Replies open nothing then. This is what a recorder records that
takes the same operations, so a dry run shows what the processor would hold
(`RelayManager.handles_follow_activation`).
-/

namespace DhcpRelay

open Interface (Property)

namespace Agent

/-! ## Trackers do not depend on processors -/

section
variable {σ τ : Type} {a : Agent σ} {b : Agent τ}

/-- What an elementary operation makes of the tracker depends on the tracker alone, not on the
processor. -/
theorem tracker_apply_congr (l : Lifecycle σ) (l' : Lifecycle τ) (family : Family)
    (h : a.tracker = b.tracker) (o : Operation) :
    (a.apply l family o).tracker = (b.apply l' family o).tracker := by
  cases o with
  | updateGlobal c =>
    show (a.updateGlobal l c).2.tracker = (b.updateGlobal l' c).2.tracker
    rw [tracker_updateGlobal, tracker_updateGlobal, h]
  | deleteGlobal =>
    show (a.reconcile l _).tracker = (b.reconcile l' _).tracker
    rw [tracker_reconcile, tracker_reconcile, h]
  | createInterface c =>
    show (a.createInterface l family c).2.tracker = (b.createInterface l' family c).2.tracker
    unfold createInterface
    rw [h]
    split
    · exact h
    · rw [tracker_updateInterface, tracker_updateInterface, h]
  | updateInterface c =>
    show (a.updateInterface l family c).2.tracker = (b.updateInterface l' family c).2.tracker
    rw [tracker_updateInterface, tracker_updateInterface, h]
  | deleteInterface name =>
    show (a.deleteInterface l name).tracker = (b.deleteInterface l' name).tracker
    rw [tracker_deleteInterface, tracker_deleteInterface, h]
  | notify e =>
    show (a.notify l e).tracker = (b.notify l' e).tracker
    rw [tracker_notify, tracker_notify, h]

/-- What elementary operations make of the tracker depends on the tracker alone. -/
theorem tracker_applyAll_congr (l : Lifecycle σ) (l' : Lifecycle τ) (family : Family)
    (h : a.tracker = b.tracker) (os : List Operation) :
    (a.applyAll l family os).tracker = (b.applyAll l' family os).tracker := by
  induction os generalizing a b with
  | nil => exact h
  | cons o os ih => exact ih (tracker_apply_congr l l' family h o)

end

/-! ## Reconciliations -/

section
variable {a b : Agent V4.Processor} {change : Tracker → Tracker} {binds : Nat → Bool}
  {net : V4.Network}

/-- Commands reach the processor and nothing else. -/
theorem commands_v4 (binds : Nat → Bool) (net : V4.Network) (a : Agent V4.Processor)
    (cs : List Command) : a.commands (V4.Processor.lifecycle binds net) cs =
      { a with processor := a.processor.performAll net a.tracker cs } := by
  unfold commands
  induction cs generalizing a with
  | nil => rfl
  | cons c cs ih =>
    rw [List.foldl_cons, ih]
    rfl

/-- The processor of an agent whose tracker becomes `t`, after it was told of the indices that are
gone. -/
def unlinked (net : V4.Network) (a : Agent V4.Processor) (t : Tracker) : V4.Processor :=
  a.processor.performAll net t ((gone a.tracker.activeIndices t.activeIndices).map .deactivate)

/-- What a reconciliation makes of the processor of an agent whose tracker becomes `t`. -/
inductive Relinked (binds : Nat → Bool) (net : V4.Network) (a : Agent V4.Processor) (t : Tracker)
    (q : V4.Processor) : Prop where
  | stopped (h : t.activeIndices = []) (hq : q = a.processor.perform net t .stop)
  | failed (h : t.activeIndices ≠ []) (hstart : ((a.unlinked net t).start binds).1 ≠ none)
    (hq : q = ((a.unlinked net t).start binds).2)
  | started (h : t.activeIndices ≠ []) (hstart : ((a.unlinked net t).start binds).1 = none)
    (hq : q = ((a.unlinked net t).start binds).2.performAll net t
      ((arrived a.processor.running a.tracker.activeIndices t.activeIndices).map .activate))

/-- Telling a processor of the indices that are gone does not end its service. -/
theorem running_unlinked (net : V4.Network) (a : Agent V4.Processor) (t : Tracker) :
    (a.unlinked net t).running = a.processor.running :=
  V4.Processor.running_performAll (by simp)

/-- A reconciliation stops the processor, fails to start it, or activates what arrived. -/
theorem relinked_reconcile (binds : Nat → Bool) (net : V4.Network) (a : Agent V4.Processor)
    (change : Tracker → Tracker) : Relinked binds net a (change a.tracker)
      (a.reconcile (V4.Processor.lifecycle binds net) change).processor := by
  by_cases h : (change a.tracker).activeIndices = []
  · refine .stopped h ?_
    simp only [reconcile, h, List.isEmpty_nil, if_true]
    rfl
  · have hne : (change a.tracker).activeIndices.isEmpty = false := by simpa using h
    have hrun := a.running_unlinked net (change a.tracker)
    simp only [reconcile, hne, Bool.false_eq_true, if_false, commands_v4]
    split
    · next failure q hstart =>
      change (a.unlinked net (change a.tracker)).start binds = _ at hstart
      refine .failed h ?_ (congrArg Prod.snd hstart).symm
      rw [hstart]
      exact Option.some_ne_none failure
    · next q hstart =>
      change (a.unlinked net (change a.tracker)).start binds = _ at hstart
      refine .started h (congrArg Prod.fst hstart) ?_
      rw [hstart, ← hrun]
      rfl

/-! ## Handles of active interfaces only -/

/-- A processor holds handles of active interfaces only. -/
def Linked (a : Agent V4.Processor) : Prop :=
  ∀ i ∈ a.processor.relay.handles.keys, i ∈ a.tracker.activeIndices

/-- Nothing that is held after an agent was told of the indices that are gone is gone. -/
theorem Linked.unlinked (h : a.Linked) (net : V4.Network) {t : Tracker} {i : Int}
    (hi : i ∈ (a.unlinked net t).relay.handles.keys) : i ∈ t.activeIndices := by
  obtain ⟨hkept, hi⟩ := V4.Processor.mem_handles_deactivate.1 hi
  rw [mem_gone, not_and, Decidable.not_not] at hkept
  exact hkept (h i hi)

/-- A reconciliation leaves handles of active interfaces only, whatever fails. -/
theorem Linked.reconcile (h : a.Linked) :
    (a.reconcile (V4.Processor.lifecycle binds net) change).Linked := by
  unfold Linked
  rw [tracker_reconcile]
  intro i hi
  cases relinked_reconcile binds net a change with
  | stopped _ hq =>
    rw [hq] at hi
    cases hi
  | failed _ _ hq =>
    rw [hq, V4.Processor.relay_start] at hi
    exact h.unlinked net hi
  | started _ _ hq =>
    rw [hq] at hi
    rcases V4.Processor.of_mem_handles_activate hi with hi | hi
    · exact (mem_arrived.1 hi).1
    · rw [V4.Processor.relay_start] at hi
      exact h.unlinked net hi

/-- Telling the processor of a new record leaves its links and its service alone. -/
theorem links_announce (binds : Nat → Bool) (net : V4.Network) (a : Agent V4.Processor)
    (name : String) : (a.announce (V4.Processor.lifecycle binds net) name).processor.relay.handles =
      a.processor.relay.handles ∧
    (a.announce (V4.Processor.lifecycle binds net) name).processor.running =
      a.processor.running := by
  unfold announce
  split <;> exact ⟨rfl, rfl⟩

/-- Telling the processor of a new record is nothing to its handles. -/
theorem Linked.announce (h : a.Linked) (name : String) :
    (a.announce (V4.Processor.lifecycle binds net) name).Linked := by
  unfold Linked
  rw [tracker_announce, (links_announce binds net a name).1]
  exact h

/-- A move leaves handles of active interfaces only. -/
theorem Linked.move (h : a.Linked) (hm : Move (V4.Processor.lifecycle binds net) a b) :
    b.Linked := by
  cases hm with
  | idle => exact h
  | store c hc =>
    intro i hi
    rw [Tracker.activeIndices, a.tracker.active_setInterface_of_unknown hc]
    rw [(links_announce binds net a c.name).1] at hi
    exact h i hi
  | update c => exact (h.announce c.name).reconcile
  | remove name =>
    exact show (a.reconcile (V4.Processor.lifecycle binds net) (·.removeInterface name)).Linked from
      h.reconcile
  | change => exact h.reconcile

/-- Elementary operations leave handles of active interfaces only. -/
theorem Linked.applyAll (h : a.Linked) (os : List Operation) :
    (a.applyAll (V4.Processor.lifecycle binds net) .v4 os).Linked := by
  induction os generalizing a with
  | nil => exact h
  | cons o os ih => exact ih (h.move (apply_move _ .v4 a o))

/-! ## Handles of all active interfaces -/

/-- A processor holds the handles of just the active interfaces, and it is serving while there is
one. -/
structure FullyLinked (a : Agent V4.Processor) : Prop where
  handles_eq : a.processor.relay.handles.keys = a.tracker.activeIndices
  running_iff : a.processor.running = true ↔ a.tracker.activeIndices ≠ []

/-- Where the same handles are held, the same service runs and the same interfaces are active,
nothing is missing either. -/
theorem FullyLinked.congr (h : a.FullyLinked)
    (hhandles : b.processor.relay.handles = a.processor.relay.handles)
    (hrunning : b.processor.running = a.processor.running)
    (hactive : b.tracker.activeIndices = a.tracker.activeIndices) : b.FullyLinked where
  handles_eq := by rw [hhandles, hactive, h.handles_eq]
  running_iff := by rw [hrunning, hactive, h.running_iff]

/-- If nothing fails, a reconciliation leaves the handles of just the active interfaces. -/
theorem FullyLinked.reconcile (h : a.FullyLinked) (ht : (change a.tracker).WellFormed)
    (hbinds : ∀ n, binds n = true) (hnet : net.OpensAll) :
    (a.reconcile (V4.Processor.lifecycle binds net) change).FullyLinked := by
  cases relinked_reconcile binds net a change with
  | stopped hnil hq =>
    constructor
    · rw [tracker_reconcile, hq, hnil]
      rfl
    · rw [tracker_reconcile, hq, hnil]
      exact ⟨nofun, absurd rfl⟩
  | failed _ hstart => exact absurd (V4.Processor.start_of_granted hbinds) hstart
  | started hne hstart hq =>
    constructor
    · rw [tracker_reconcile, hq]
      refine SortedTable.keys_ext fun i => ?_
      rw [V4.Processor.mem_handles_activate hnet fun i hi =>
          ht.exists_property (mem_arrived.1 hi).1, V4.Processor.relay_start, Agent.unlinked,
        V4.Processor.mem_handles_deactivate, mem_arrived, mem_gone, not_and, Decidable.not_not,
        h.handles_eq]
      constructor
      · rintro (⟨hi, -⟩ | ⟨hkept, hbefore⟩)
        · exact hi
        · exact hkept hbefore
      · intro hi
        by_cases hbefore : i ∈ a.tracker.activeIndices
        · exact .inr ⟨fun _ => hi, hbefore⟩
        · exact .inl ⟨hi, fun _ => hbefore⟩
    · rw [tracker_reconcile, hq, V4.Processor.running_performAll (by simp),
        V4.Processor.running_of_started hstart]
      exact ⟨fun _ => hne, fun _ => rfl⟩

/-- If nothing fails, a move leaves the handles of just the active interfaces. -/
theorem FullyLinked.move (h : a.FullyLinked) (ht : a.tracker.WellFormed)
    (hbinds : ∀ n, binds n = true) (hnet : net.OpensAll)
    (hm : Move (V4.Processor.lifecycle binds net) a b) : b.FullyLinked := by
  cases hm with
  | idle => exact h
  | store c hc =>
    obtain ⟨hhandles, hrunning⟩ := links_announce binds net a c.name
    exact h.congr hhandles hrunning
      (congrArg SortedTable.keys (a.tracker.active_setInterface_of_unknown hc))
  | update c =>
    obtain ⟨hhandles, hrunning⟩ := links_announce binds net a c.name
    have hannounced := h.congr hhandles hrunning (by rw [tracker_announce])
    exact hannounced.reconcile (by rw [tracker_announce]; exact ht.setInterface c) hbinds hnet
  | remove name => exact (h.reconcile (ht.removeInterface name) hbinds hnet).congr rfl rfl rfl
  | change family o => exact h.reconcile (ht.apply family o) hbinds hnet

/-- If nothing fails, elementary operations leave the handles of just the active interfaces. -/
theorem FullyLinked.applyAll (h : a.FullyLinked) (ht : a.tracker.WellFormed)
    (hbinds : ∀ n, binds n = true) (hnet : net.OpensAll) (os : List Operation) :
    (a.applyAll (V4.Processor.lifecycle binds net) .v4 os).FullyLinked := by
  induction os generalizing a with
  | nil => exact h
  | cons o os ih =>
    have hm := apply_move (V4.Processor.lifecycle binds net) .v4 a o
    exact ih (h.move ht hbinds hnet hm) (wellFormed_move ht hm)

/-! ## Datagrams -/

/-- A datagram opens the link of an active interface at most. -/
theorem Linked.receive (h : a.Linked) (ht : a.tracker.WellFormed) (net : V4.Network)
    (d : V4.Datagram) :
    Linked { a with processor.relay := (a.processor.relay.receive net a.tracker d).2 } := by
  intro i hi
  dsimp only at hi ⊢
  obtain ⟨hsame, -⟩ | ⟨_, _, _, _, egress, -, hegress, hasked, -⟩ :=
    V4.Relay.links_receive net a.tracker a.processor.relay d
  · rw [hsame] at hi
    exact h i hi
  · rw [hasked] at hi
    rcases V4.Relay.of_mem_handles_handle hi with rfl | hi
    · exact ht.mem_activeIndices_of_activeNamed? hegress
    · exact h i hi

/-- A datagram opens nothing if all active interfaces have their handles. -/
theorem FullyLinked.receive (h : a.FullyLinked) (ht : a.tracker.WellFormed) (net : V4.Network)
    (d : V4.Datagram) :
    FullyLinked { a with processor.relay := (a.processor.relay.receive net a.tracker d).2 } := by
  refine h.congr ?_ rfl rfl
  obtain ⟨hsame, -⟩ | ⟨_, _, _, _, egress, -, hegress, hasked, -⟩ :=
    V4.Relay.links_receive net a.tracker a.processor.relay d
  · exact hsame
  · have hheld := ht.mem_activeIndices_of_activeNamed? hegress
    rw [← h.handles_eq] at hheld
    exact hasked.trans (congrArg _ (V4.Relay.handle_of_mem hheld))

end

end Agent

/-! ## Runs -/

namespace Manager

section
variable {σ₄ σ₆ τ₄ τ₆ : Type} {m : Manager σ₄ σ₆} {n : Manager τ₄ τ₆}

/-- An operation carries out its elementary operations for DHCPv4 on the agent of DHCPv4. -/
theorem v4_apply (l : Lifecycles σ₄ σ₆) (m : Manager σ₄ σ₆) (o : Operation) :
    (m.apply l o).v4 = m.v4.applyAll l.v4 .v4 (o.partsFor .v4) := by
  rw [apply_eq, Operation.partsFor]
  generalize o.family = other
  cases other <;> rfl

/-- What an operation makes of the trackers depends on the trackers alone. -/
theorem tracker_apply_congr (l : Lifecycles σ₄ σ₆) (l' : Lifecycles τ₄ τ₆)
    (h : ∀ family, m.tracker family = n.tracker family) (o : Operation) (family : Family) :
    (m.apply l o).tracker family = (n.apply l' o).tracker family := by
  rw [apply_eq, apply_eq]
  generalize o.family = other
  cases other <;> cases family
  · exact Agent.tracker_applyAll_congr l.v4 l'.v4 .v4 (h .v4) o.parts
  · exact h .v6
  · exact h .v4
  · exact Agent.tracker_applyAll_congr l.v6 l'.v6 .v6 (h .v6) o.parts

end

end Manager

namespace RelayManager

/-- The operation that an input carries out, if it is one. -/
def Input.operation? : Input → Option Manager.Operation
  | operate _ _ _ o => some o
  | receive₄ .. | receive₆ .. | loopEnded _ => none

/-- Nothing fails for DHCPv4 in an input: the socket and all links open in an operation, and the
receive loop does not end. -/
def Input.Untroubled : Input → Prop
  | operate binds₄ _ net _ => (∀ n, binds₄ n = true) ∧ net.OpensAll
  | loopEnded family => family ≠ .v4
  | receive₄ .. | receive₆ .. => True

/-- Recorders that take the operations of a run, and nothing else of it. -/
def dryRun (ins : List Input) : Manager Recorder Recorder :=
  (Manager.fresh {} {}).run .dryRun (ins.filterMap Input.operation?)

/-- A run with one more input. -/
theorem run_concat (m : RelayManager) (ins : List Input) (i : Input) :
    m.run (ins ++ [i]) = (m.run ins).take i := List.foldl_concat ..

/-- Of one more input the recorders take the operation, if it is one. -/
theorem dryRun_concat (ins : List Input) (i : Input) :
    dryRun (ins ++ [i]) = (dryRun ins).run .dryRun i.operation?.toList := by
  rw [dryRun, List.filterMap_append, Manager.run, List.foldl_append]
  cases i <;> rfl

/-- The trackers of a run are those of its operations alone. -/
theorem tracker_dryRun (ins : List Input) (family : Family) :
    (dryRun ins).tracker family = (start.run ins).tracker family := by
  induction ins using List.reverseRecOn generalizing family with
  | nil => cases family <;> rfl
  | append_singleton ins i ih =>
    rw [run_concat, dryRun_concat]
    cases i with
    | operate binds₄ binds₆ net o => exact Manager.tracker_apply_congr _ _ ih o family
    | receive₄ net d =>
      rw [tracker_receive₄]
      exact ih family
    | receive₆ net d =>
      rw [tracker_receive₆]
      exact ih family
    | loopEnded other =>
      rw [tracker_loopEnded]
      exact ih family

/-- Whatever happens, the processor holds handles of active interfaces only. -/
theorem linked_run (ins : List Input) : (start.run ins).v4.Linked := by
  induction ins using List.reverseRecOn with
  | nil => exact nofun
  | append_singleton ins i ih =>
    rw [run_concat]
    cases i with
    | operate binds₄ binds₆ net o =>
      show (Manager.apply _ (start.run ins) o).v4.Linked
      rw [Manager.v4_apply]
      exact ih.applyAll _
    | receive₄ net d => exact ih.receive (wellFormed_run ins .v4) net d
    | receive₆ net d => exact ih
    | loopEnded family => cases family <;> exact ih

/-- As long as nothing fails, the processor holds the handles of just the active interfaces. -/
theorem fullyLinked_run {ins : List Input} (h : ∀ i ∈ ins, i.Untroubled) :
    (start.run ins).v4.FullyLinked := by
  induction ins using List.reverseRecOn with
  | nil => exact ⟨rfl, by decide⟩
  | append_singleton ins i ih =>
    have hi := h i List.mem_concat_self
    replace ih := ih fun j hj => h j (List.mem_append_left _ hj)
    rw [run_concat]
    cases i with
    | operate binds₄ binds₆ net o =>
      show (Manager.apply _ (start.run ins) o).v4.FullyLinked
      rw [Manager.v4_apply]
      exact ih.applyAll (wellFormed_run ins .v4) hi.1 hi.2 _
    | receive₄ net d => exact ih.receive (wellFormed_run ins .v4) net d
    | receive₆ net d => exact ih
    | loopEnded family =>
      cases family with
      | v4 => exact absurd rfl hi
      | v6 => exact ih

/-- Link handles follow activation. Whatever a manager and its relays take in from the beginning,
whichever starts and links fail and whenever the receive loop ends, the DHCPv4 processor holds
handles of active interfaces only, so none while no interface is active.

As long as no start and no link fails in an operation and the receive loop does not end, it holds
the handles of just the active interfaces, and it holds and serves what a recorder does that takes
the same operations. -/
theorem handles_follow_activation (ins : List Input) :
    let a := (start.run ins).v4
    let recorder := (dryRun ins).v4.processor
    (∀ i ∈ a.processor.relay.handles.keys, i ∈ a.tracker.activeIndices) ∧
    (a.tracker.activeIndices = [] → a.processor.relay.handles.keys = []) ∧
    ((∀ i ∈ ins, i.Untroubled) →
      a.processor.relay.handles.keys = a.tracker.activeIndices ∧
      a.processor.running = recorder.running ∧
      a.processor.relay.handles.keys = recorder.held.keys) := by
  intro a recorder
  have hlinked : a.Linked := linked_run ins
  refine ⟨hlinked, fun hnil => ?_, fun hins => ?_⟩
  · exact List.eq_nil_iff_forall_not_mem.2 fun i hi => by simpa [hnil] using hlinked i hi
  · have hfull : a.FullyLinked := fullyLinked_run hins
    obtain ⟨-, hcoupled, -⟩ := Manager.coupled_run (ins.filterMap Input.operation?) .v4
    have htracker : (dryRun ins).v4.tracker = a.tracker := tracker_dryRun ins .v4
    have hheld : recorder.held.keys = a.tracker.activeIndices := htracker ▸ hcoupled.held_eq
    have hrunning : recorder.running = true ↔ a.tracker.activeIndices ≠ [] :=
      htracker ▸ hcoupled.running_iff
    refine ⟨hfull.handles_eq, ?_, hfull.handles_eq.trans hheld.symm⟩
    rw [Bool.eq_iff_iff, hfull.running_iff, hrunning]

/-- Two interfaces come up, the first of them is configured, and the receive loop of DHCPv6 ends. -/
def untroubledRun : List Input :=
  Manager.oneOfTwo.map (.operate (fun _ => true) (fun _ => true) V4.Relay.openNetwork) ++
    [.loopEnded .v6]

/-- The interface that is active has a handle, the other one has none, and the processor is serving,
as the recorder is. -/
theorem handles_of_untroubledRun :
    (∀ i ∈ untroubledRun, i.Untroubled) ∧
      (start.run untroubledRun).v4.processor.relay.handles.keys = [1] ∧
      (dryRun untroubledRun).v4.processor.held.keys = [1] ∧
      (start.run untroubledRun).v4.processor.running = true := by
  have hins : ∀ i ∈ untroubledRun, i.Untroubled := by
    intro i hi
    rcases List.mem_append.1 hi with hi | hi
    · obtain ⟨o, -, rfl⟩ := List.mem_map.1 hi
      exact ⟨fun _ => rfl, fun _ _ _ => rfl⟩
    · obtain rfl := List.mem_singleton.1 hi
      exact nofun
  obtain ⟨-, -, hfull⟩ := handles_follow_activation untroubledRun
  obtain ⟨-, hrunning, hheld⟩ := hfull hins
  have hrecorder : (dryRun untroubledRun).v4.processor.held.keys = [1] := by decide
  exact ⟨hins, hheld.trans hrecorder, hrecorder, hrunning.trans (by decide)⟩

end RelayManager

end DhcpRelay
