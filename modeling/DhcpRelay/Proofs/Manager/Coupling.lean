import DhcpRelay.Proofs.Manager.Following

/-!
# Recorders stay coupled to their trackers

As long as starts do not fail, a recorder is at any time what its tracker asks for: it is serving
exactly while there is an active index, and the activated indices are the active ones
(`Agent.Coupled`). Every reconciliation takes the difference between the active indices before and
after, so it is right only because the recorder held the former.

How often a recorder began and ceased to serve is how often the active set became non-empty and
empty. The history that counts has an entry for every elementary operation: a reload is several, and
may empty the set and fill it again.
-/

namespace DhcpRelay

/-! ## Histories of active sets -/

/-- Whether a set that was empty no longer is. -/
def fills (before after : List Int) : Bool := before.isEmpty && !after.isEmpty

/-- Whether a set that was not empty now is. -/
def drains (before after : List Int) : Bool := !before.isEmpty && after.isEmpty

/-- How many steps of a history are of a kind. -/
def countSteps (kind : List Int → List Int → Bool) : List (List Int) → Nat
  | before :: after :: rest => (kind before after).toNat + countSteps kind (after :: rest)
  | _ => 0

namespace Agent

/-- The active indices before elementary operations and after each. -/
def activeHistory (family : Family) (a : Agent Recorder) (os : List Operation) : List (List Int) :=
  (os.scanl (apply (Recorder.lifecycle family) family) a).map fun a => a.tracker.activeIndices

/-! ## The invariant -/

/-- A recorder whose starts do not fail is what its tracker asks for: it is serving exactly while
there is an active index, the activated indices are the active ones, and its log says so. -/
structure Coupled (a : Agent Recorder) : Prop where
  failStart_eq : a.processor.failStart = false
  running_iff : a.processor.running = true ↔ a.tracker.activeIndices ≠ []
  held_eq : a.processor.held.keys = a.tracker.activeIndices
  faithful : a.processor.Faithful

/-- From one agent to the next a recorder begins to serve when the active set fills and ceases when
it drains. -/
structure Counted (a b : Agent Recorder) : Prop where
  starts_eq : b.processor.starts =
    a.processor.starts + (fills a.tracker.activeIndices b.tracker.activeIndices).toNat
  stops_eq : b.processor.stops =
    a.processor.stops + (drains a.tracker.activeIndices b.tracker.activeIndices).toNat

section
variable {a b c : Agent Recorder} {family : Family} {change : Tracker → Tracker}

/-- Before anything happened nothing is active and nothing is activated. -/
theorem Coupled.fresh : Coupled { processor := {} } := ⟨rfl, by decide, rfl, .fresh⟩

/-- Quiet steps keep the coupling. -/
theorem Coupled.quiet (h : a.Coupled) (hq : a.Quiet b) : b.Coupled where
  failStart_eq := hq.steady.failStart_eq.trans h.failStart_eq
  running_iff := by rw [hq.steady.running_eq, hq.active_eq]; exact h.running_iff
  held_eq := by rw [hq.held_eq, hq.active_eq]; exact h.held_eq
  faithful := hq.faithful h.faithful

/-- What is no longer active is activated in the recorder of a coupled agent. -/
theorem Coupled.dismissed (h : a.Coupled) (after : List Int) :
    (a.dismissed after).Faithful := by
  refine h.faithful.deactivate (nodup_gone a.tracker.active.keys_nodup) fun i hi => ?_
  rw [h.held_eq]
  exact (mem_gone.1 hi).1

/-- What arrives is not activated in the recorder of a coupled agent: it was not active, or nothing
was activated. -/
theorem Coupled.resumed (h : a.Coupled) {after : List Int} (hn : after.Nodup) :
    (a.resumed after).Faithful := by
  refine (h.dismissed after).begun.activate (nodup_arrived hn) rfl fun i hi hheld => ?_
  have hbefore : i ∈ a.tracker.activeIndices := h.held_eq ▸ (mem_held_dismissed.1 hheld).2
  have hrun := h.running_iff.2 (List.ne_nil_of_mem hbefore)
  exact (mem_arrived.1 hi).2 hrun hbefore

/-- A reconciliation keeps the coupling. -/
theorem Coupled.reconcile (h : a.Coupled) :
    (a.reconcile (Recorder.lifecycle family) change).Coupled := by
  by_cases hnil : (change a.tracker).activeIndices = []
  · rw [reconcile_of_nil hnil]
    exact ⟨h.failStart_eq, by simp [Recorder.perform, hnil], hnil.symm,
      h.faithful.perform (c := .stop) trivial⟩
  · rw [reconcile_of_started hnil h.failStart_eq]
    have hdismissed := a.steady_dismissed (change a.tracker).activeIndices
    have hresumed := a.steady_resumed (change a.tracker).activeIndices
    refine ⟨?_, ?_, ?_, h.resumed (change a.tracker).active.keys_nodup⟩
    · exact hresumed.failStart_eq.trans (hdismissed.failStart_eq.trans h.failStart_eq)
    · exact ⟨fun _ => hnil, fun _ => hresumed.running_eq⟩
    · refine SortedTable.keys_ext fun i => ?_
      rw [mem_held_resumed, h.held_eq]
      constructor
      · rintro (⟨hi, -⟩ | ⟨hi, hbefore⟩)
        · exact hi
        · exact hi hbefore
      · intro hi
        by_cases hbefore : i ∈ a.tracker.activeIndices
        · exact .inr ⟨fun _ => hi, hbefore⟩
        · exact .inl ⟨hi, fun _ => hbefore⟩

/-- A reconciliation starts the recorder of a coupled agent when the active set fills, and stops it
when the set drains. -/
theorem Coupled.counted_reconcile (h : a.Coupled) :
    Counted a (a.reconcile (Recorder.lifecycle family) change) := by
  have hrun : a.processor.running = !a.tracker.activeIndices.isEmpty := by
    rw [Bool.eq_iff_iff, h.running_iff]
    simp
  by_cases hnil : (change a.tracker).activeIndices = []
  · rw [reconcile_of_nil hnil]
    constructor
    · simp [Recorder.perform, Recorder.record, fills, hnil]
    · simp only [Recorder.perform, Recorder.record, drains, hnil, hrun]
      cases a.tracker.activeIndices <;> rfl
  · rw [reconcile_of_started hnil h.failStart_eq]
    have hdismissed := a.steady_dismissed (change a.tracker).activeIndices
    have hresumed := a.steady_resumed (change a.tracker).activeIndices
    have hne : (change a.tracker).activeIndices.isEmpty = false := by simpa using hnil
    constructor
    · rw [hresumed.starts_eq]
      simp only [Recorder.begun, hdismissed.running_eq, hdismissed.starts_eq, fills, hne, hrun]
      cases a.tracker.activeIndices <;> rfl
    · rw [hresumed.stops_eq]
      simp [Recorder.begun, hdismissed.stops_eq, drains, hne]

/-- A quiet step neither starts nor stops, and the active set neither fills nor drains. -/
theorem Quiet.counted (h : a.Quiet b) : Counted a b := by
  constructor
  · rw [h.steady.starts_eq, h.active_eq, fills, Bool.and_not_self]
    rfl
  · rw [h.steady.stops_eq, h.active_eq, drains, Bool.not_and_self]
    rfl

/-- Quiet steps before and after change no count. -/
theorem Counted.between {a' b' : Agent Recorder} (h : Counted a' b') (ha : a.Quiet a')
    (hb : b'.Quiet b) : Counted a b := by
  constructor
  · rw [hb.steady.starts_eq, h.starts_eq, ha.steady.starts_eq, ha.active_eq, hb.active_eq]
  · rw [hb.steady.stops_eq, h.stops_eq, ha.steady.stops_eq, ha.active_eq, hb.active_eq]

/-- An elementary operation keeps the coupling, and the counts follow the active set. -/
theorem Coupled.apply (h : a.Coupled) (family : Family) (o : Operation) :
    (a.apply (Recorder.lifecycle family) family o).Coupled ∧
      Counted a (a.apply (Recorder.lifecycle family) family o) := by
  rcases apply_follows family a o with hq | ⟨a', change, ha, hb⟩
  · exact ⟨h.quiet hq, hq.counted⟩
  · exact ⟨(h.quiet ha).reconcile.quiet hb, (h.quiet ha).counted_reconcile.between ha hb⟩

/-! ## Runs -/

/-- The history of an agent begins with its active indices. -/
theorem activeHistory_cons (family : Family) (a : Agent Recorder) (os : List Operation) :
    ∃ rest, a.activeHistory family os = a.tracker.activeIndices :: rest := by
  cases os with
  | nil => exact ⟨[], rfl⟩
  | cons o os => exact ⟨_, by rw [activeHistory, List.scanl_cons, List.map_cons]⟩

/-- The history of an agent ends with the active indices it is left with. -/
theorem getLast?_activeHistory (family : Family) (a : Agent Recorder) (os : List Operation) :
    (a.activeHistory family os).getLast? =
      some (a.applyAll (Recorder.lifecycle family) family os).tracker.activeIndices := by
  rw [activeHistory, List.getLast?_map, List.getLast?_scanl]
  rfl

/-- The first step of a history counts if it is of the kind. -/
theorem countSteps_activeHistory (kind : List Int → List Int → Bool) (family : Family)
    (a : Agent Recorder) (o : Operation) (os : List Operation) :
    countSteps kind (a.activeHistory family (o :: os)) =
      (kind a.tracker.activeIndices
        (a.apply (Recorder.lifecycle family) family o).tracker.activeIndices).toNat +
      countSteps kind ((a.apply (Recorder.lifecycle family) family o).activeHistory family os) := by
  have hcons : a.activeHistory family (o :: os) = a.tracker.activeIndices ::
      (a.apply (Recorder.lifecycle family) family o).activeHistory family os := by
    rw [activeHistory, List.scanl_cons, List.map_cons]
    rfl
  obtain ⟨rest, hrest⟩ :=
    activeHistory_cons family (a.apply (Recorder.lifecycle family) family o) os
  rw [hcons, hrest, countSteps]

/-- Elementary operations keep the coupling, and the counts are those of the history. -/
theorem Coupled.applyAll (h : a.Coupled) (family : Family) (os : List Operation) :
    let b := a.applyAll (Recorder.lifecycle family) family os
    b.Coupled ∧
      b.processor.starts =
        a.processor.starts + countSteps fills (a.activeHistory family os) ∧
      b.processor.stops =
        a.processor.stops + countSteps drains (a.activeHistory family os) := by
  induction os generalizing a with
  | nil => exact ⟨h, rfl, rfl⟩
  | cons o os ih =>
    obtain ⟨hcoupled, hcounted⟩ := h.apply family o
    obtain ⟨hb, hstarts, hstops⟩ := ih hcoupled
    refine ⟨hb, hstarts.trans ?_, hstops.trans ?_⟩
    · rw [hcounted.starts_eq, countSteps_activeHistory, Nat.add_assoc]
    · rw [hcounted.stops_eq, countSteps_activeHistory, Nat.add_assoc]

/-! ## Records of interfaces -/

/-- The interfaces of which the recorder has a record are the configured ones. -/
def Registered (a : Agent Recorder) : Prop :=
  ∀ name, name ∈ a.processor.interfaces.keys ↔ name ∈ a.tracker.configs.keys

/-- A recorder that was told of a new record has it. -/
theorem Registered.announce (h : a.Registered) (name n : String) :
    n ∈ (a.announce (Recorder.lifecycle family) name).processor.interfaces.keys ↔
      n = name ∨ n ∈ a.tracker.configs.keys := by
  unfold Agent.announce
  split
  · next hc =>
    rw [h n]
    refine ⟨.inr, ?_⟩
    rintro (rfl | hn)
    · exact SortedTable.contains_iff_mem_keys.1 hc
    · exact hn
  · exact SortedTable.mem_keys_insert.trans (or_congr_right (h n))

/-- A move keeps the records of a recorder those of the configured interfaces. -/
theorem Registered.move (h : a.Registered) (hm : Move (Recorder.lifecycle family) a b) :
    b.Registered := by
  intro n
  cases hm with
  | idle => exact h n
  | store c =>
    rw [Tracker.configs_setInterface, SortedTable.mem_keys_insert]
    exact h.announce c.name n
  | update c =>
    rw [tracker_reconcile, interfaces_reconcile, tracker_announce, Tracker.configs_setInterface,
      SortedTable.mem_keys_insert]
    exact h.announce c.name n
  | remove name =>
    show n ∈ ((a.reconcile (Recorder.lifecycle family) _).processor.interfaces.erase name).keys ↔
      n ∈ (a.reconcile (Recorder.lifecycle family) _).tracker.configs.keys
    rw [interfaces_reconcile, tracker_reconcile, Tracker.configs_removeInterface,
      SortedTable.mem_keys_erase, SortedTable.mem_keys_erase, h n]
  | change other o ho =>
    rw [tracker_reconcile, interfaces_reconcile, ho]
    exact h n

/-- Elementary operations keep the records of a recorder those of the configured interfaces. -/
theorem Registered.applyAll (h : a.Registered) (family : Family) (os : List Operation) :
    (a.applyAll (Recorder.lifecycle family) family os).Registered := by
  induction os generalizing a with
  | nil => exact h
  | cons o os ih => exact ih (h.move (apply_move (Recorder.lifecycle family) family a o))

end

end Agent

/-! ## Runs of both families -/

namespace Manager

/-- The active indices of a family before a run from the beginning and after each elementary
operation of it. -/
def activeHistory (family : Family) (os : List Operation) : List (List Int) :=
  Agent.activeHistory family { processor := {} } (os.flatMap (·.partsFor family))

/-- After any run of a manager of recorders from the beginning, for each family: the recorder is
serving exactly while there is an active index, the activated indices are the active ones, the
interfaces with a record are the configured ones, and the recorder began and ceased to serve as
often as the active set became non-empty and empty. In its log an index is activated only after a
start and while it is not activated, and deactivated only while it is, so between two activations
there is a deactivation or a stop. -/
theorem recorder_follows_tracker (os : List Operation) (family : Family) :
    let a := ((fresh {} {}).run .dryRun os).agent family
    (activeHistory family os).getLast? = some a.tracker.activeIndices ∧
    (a.processor.running = true ↔ a.tracker.activeIndices ≠ []) ∧
    a.processor.held.keys = a.tracker.activeIndices ∧
    a.processor.interfaces.keys = a.tracker.configs.keys ∧
    a.processor.starts = countSteps fills (activeHistory family os) ∧
    a.processor.stops = countSteps drains (activeHistory family os) ∧
    Call.Orderly a.processor.calls ∧
    ∀ i pre mid post,
      a.processor.calls = pre ++ .command (.activate i) :: mid ++ .command (.activate i) :: post →
      .command (.deactivate i) ∈ mid ∨ .command .stop ∈ mid := by
  have hfresh : (fresh {} {} : Manager Recorder Recorder).agent family = { processor := {} } := by
    cases family <;> rfl
  intro a
  have ha : a = Agent.applyAll (Recorder.lifecycle family) family { processor := {} }
      (os.flatMap (·.partsFor family)) := hfresh ▸ agent_run (fresh {} {}) os family
  obtain ⟨hcoupled, hstarts, hstops⟩ := Agent.Coupled.fresh.applyAll family
    (os.flatMap (·.partsFor family))
  have hregistered := Agent.Registered.applyAll (a := { processor := {} }) (fun _ => Iff.rfl) family
    (os.flatMap (·.partsFor family))
  rw [← ha] at hcoupled hstarts hstops hregistered
  refine ⟨?_, hcoupled.running_iff, hcoupled.held_eq, SortedTable.keys_ext hregistered, ?_, ?_,
    hcoupled.faithful.orderly, fun i pre mid post he => hcoupled.faithful.orderly.mem_between he⟩
  · rw [activeHistory, Agent.getLast?_activeHistory, ha]
  · exact hstarts.trans (Nat.zero_add _)
  · exact hstops.trans (Nat.zero_add _)

end Manager

end DhcpRelay
