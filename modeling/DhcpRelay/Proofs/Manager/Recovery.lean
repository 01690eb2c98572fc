import DhcpRelay.Proofs.History
import DhcpRelay.Proofs.Manager.Following

/-!
# What failed starts leave undone

A trial is a run in which an operator decides at any time whether the starts of a recorder fail. A
start that fails while the recorder is not serving is made good by the next one that does not fail:
all active indices are activated then. A start that fails while the recorder is serving is not. The
indices that became active in that operation are missed, and later reconciliations do not see them
among the indices that arrived; they stay missed until they cease to be active or the recorder is
stopped (`Agent.Missed`).

So a recorder that is serving holds the active indices without the missed ones
(`Agent.Accounted`), and this is all that can be said after a start that succeeded.
-/

namespace DhcpRelay

namespace Agent

/-! ## Trials -/

/-- A step of a trial. -/
inductive Trial where
  | operate (o : Operation)
  /-- From now on starts fail, or do not. -/
  | failStart (fails : Bool)
  deriving DecidableEq

/-- Takes a step of a trial. -/
def attempt (family : Family) (a : Agent Recorder) : Trial → Agent Recorder
  | .operate o => a.apply (Recorder.lifecycle family) family o
  | .failStart fails => { a with processor := { a.processor with failStart := fails } }

/-- Takes the steps of a trial one after another. -/
def attemptAll (family : Family) (a : Agent Recorder) (ts : List Trial) : Agent Recorder :=
  ts.foldl (attempt family) a

/-- The agent before a trial and after each of its steps. -/
def states (family : Family) (a : Agent Recorder) (ts : List Trial) : List (Agent Recorder) :=
  ts.scanl (attempt family) a

/-- An index became active in a step before which the recorder was serving and its starts failed,
and has been active ever since. -/
def Missed (states : List (Agent Recorder)) (i : Int) : Prop :=
  ∃ pre a b post, states = pre ++ a :: b :: post ∧
    a.processor.running = true ∧ a.processor.failStart = true ∧ i ∉ a.tracker.activeIndices ∧
    ∀ c ∈ b :: post, i ∈ c.tracker.activeIndices

section
variable {before : List (Agent Recorder)} {a b c : Agent Recorder} {family : Family} {i : Int}
  {change : Tracker → Tracker}

/-- What is missed began in such a step and has lasted. -/
theorem missed_iff_lasts {states : List (Agent Recorder)} : Missed states i ↔
    History.Lasts (fun a => a.processor.running = true ∧ a.processor.failStart = true ∧
      i ∉ a.tracker.activeIndices) (fun a => i ∈ a.tracker.activeIndices) states := by
  simp only [Missed, History.Lasts, and_assoc]

/-- Nothing is missed before the first step. -/
theorem not_missed_singleton (a : Agent Recorder) (i : Int) : ¬ Missed [a] i := by
  rw [missed_iff_lasts]
  exact History.not_lasts_singleton a

/-- After a step an index is missed if it is active and was missed before, or became active in this
step while the recorder was serving and starts failed. -/
theorem missed_append : Missed (before ++ [a] ++ [b]) i ↔
    i ∈ b.tracker.activeIndices ∧ (Missed (before ++ [a]) i ∨
      a.processor.running = true ∧ a.processor.failStart = true ∧
        i ∉ a.tracker.activeIndices) := by
  rw [missed_iff_lasts, missed_iff_lasts, History.lasts_append]

/-- What is missed is active. -/
theorem Missed.active (h : Missed (before ++ [a]) i) : i ∈ a.tracker.activeIndices :=
  (missed_iff_lasts.1 h).holds_last

/-! ## What a reconciliation leaves -/

/-- What a reconciliation leaves of a recorder: with no active index it is stopped, and otherwise
its start failed or succeeded. -/
inductive Reconciled (a b : Agent Recorder) : Prop where
  | stopped (hactive : b.tracker.activeIndices = []) (hrun : b.processor.running = false)
    (hheld : b.processor.held.keys = [])
  /-- The start failed: what is gone was deactivated. -/
  | failed (hfail : a.processor.failStart = true)
    (hrun : b.processor.running = a.processor.running)
    (hheld : ∀ i, i ∈ b.processor.held.keys ↔
      (i ∈ a.tracker.activeIndices → i ∈ b.tracker.activeIndices) ∧ i ∈ a.processor.held.keys)
  /-- The start succeeded: what arrived was activated too. -/
  | started (hfail : a.processor.failStart = false) (hrun : b.processor.running = true)
    (hheld : ∀ i, i ∈ b.processor.held.keys ↔
      (i ∈ b.tracker.activeIndices ∧ (a.processor.running = true → i ∉ a.tracker.activeIndices)) ∨
        (i ∈ a.tracker.activeIndices → i ∈ b.tracker.activeIndices) ∧ i ∈ a.processor.held.keys)

/-- What a reconciliation leaves. -/
theorem reconciled (family : Family) (a : Agent Recorder) (change : Tracker → Tracker) :
    Reconciled a (a.reconcile (Recorder.lifecycle family) change) := by
  by_cases hnil : (change a.tracker).activeIndices = []
  · rw [reconcile_of_nil hnil]
    exact .stopped hnil rfl rfl
  · cases hfail : a.processor.failStart with
    | true =>
      rw [reconcile_of_failStart hnil hfail]
      exact .failed hfail (a.steady_dismissed _).running_eq fun i => mem_held_dismissed
    | false =>
      rw [reconcile_of_started hnil hfail]
      exact .started hfail (a.steady_resumed _).running_eq fun i => mem_held_resumed

/-- Quiet steps before and after change nothing of it. -/
theorem Reconciled.between {a' b' : Agent Recorder} (h : Reconciled a' b') (ha : a.Quiet a')
    (hb : b'.Quiet b) : Reconciled a b := by
  cases h with
  | stopped hactive hrun hheld =>
    exact .stopped (hb.active_eq.trans hactive) (hb.steady.running_eq.trans hrun)
      (hb.held_eq ▸ hheld)
  | failed hfail hrun hheld =>
    refine .failed (ha.steady.failStart_eq ▸ hfail) ?_ ?_
    · rw [hb.steady.running_eq, hrun, ha.steady.running_eq]
    · simpa only [hb.held_eq, hb.active_eq, ha.held_eq, ha.active_eq] using hheld
  | started hfail hrun hheld =>
    refine .started (ha.steady.failStart_eq ▸ hfail) (hb.steady.running_eq.trans hrun) ?_
    simpa only [hb.held_eq, hb.active_eq, ha.held_eq, ha.active_eq,
      ha.steady.running_eq] using hheld

/-- An elementary operation is quiet, or leaves what a reconciliation leaves. -/
theorem apply_cases (family : Family) (a : Agent Recorder) (o : Operation) :
    a.Quiet (a.apply (Recorder.lifecycle family) family o) ∨
      Reconciled a (a.apply (Recorder.lifecycle family) family o) := by
  rcases apply_follows family a o with hq | ⟨a', change, ha, hb⟩
  · exact .inl hq
  · exact .inr ((reconciled family a' change).between ha hb)

/-! ## The invariant -/

/-- The activated indices of a recorder are accounted for: while it is serving they are the active
ones without those that are missed, and otherwise there is none, nor is any missed. -/
structure Accounted (before : List (Agent Recorder)) (a : Agent Recorder) : Prop where
  running_of_missed : ∀ i, Missed (before ++ [a]) i → a.processor.running = true
  mem_held_iff : ∀ i, i ∈ a.processor.held.keys ↔
    a.processor.running = true ∧ i ∈ a.tracker.activeIndices ∧ ¬ Missed (before ++ [a]) i

/-- Before anything happened nothing is activated. -/
theorem Accounted.fresh : Accounted [] { processor := {} } where
  running_of_missed i h := absurd h (not_missed_singleton _ i)
  mem_held_iff i := by simp

/-- A step that touches neither the active set nor the service nor the activated indices. -/
theorem Accounted.still (h : Accounted before a)
    (hactive : b.tracker.activeIndices = a.tracker.activeIndices)
    (hrun : b.processor.running = a.processor.running)
    (hheld : b.processor.held = a.processor.held) : Accounted (before ++ [a]) b := by
  have hmissed : ∀ i, Missed (before ++ [a] ++ [b]) i ↔ Missed (before ++ [a]) i := by
    intro i
    rw [missed_append, hactive]
    constructor
    · rintro ⟨hi, hm | ⟨-, -, hni⟩⟩
      · exact hm
      · exact absurd hi hni
    · exact fun hm => ⟨hm.active, .inl hm⟩
  refine ⟨fun i hi => ?_, fun i => ?_⟩
  · rw [hrun]
    exact h.running_of_missed i ((hmissed i).1 hi)
  · rw [hheld, hrun, hactive, hmissed]
    exact h.mem_held_iff i

/-- A reconciliation keeps the activated indices accounted for: a failed start makes the indices
that arrived missed, and one that succeeds while the recorder was serving does not see those that
were missed before. -/
theorem Accounted.reconciled (h : Accounted before a) (hr : Reconciled a b) :
    Accounted (before ++ [a]) b := by
  cases hr with
  | stopped hactive hrun hheld =>
    have hnone : ∀ i, ¬ Missed (before ++ [a] ++ [b]) i := fun i hi => by
      simpa [hactive] using hi.active
    exact ⟨fun i hi => absurd hi (hnone i), fun i => by simp [hheld, hrun]⟩
  | failed hfail hrun hheld =>
    refine ⟨fun i hi => ?_, fun i => ?_⟩
    · rw [hrun]
      obtain ⟨-, hm | ⟨hwas, -⟩⟩ := missed_append.1 hi
      · exact h.running_of_missed i hm
      · exact hwas
    · rw [hheld, h.mem_held_iff, missed_append, hrun]
      constructor
      · rintro ⟨hkept, hwas, hi, hm⟩
        exact ⟨hwas, hkept hi, fun hb => hb.2.elim hm fun hn => hn.2.2 hi⟩
      · rintro ⟨hwas, hi, hm⟩
        have hbefore : i ∈ a.tracker.activeIndices :=
          Decidable.byContradiction fun hn => hm ⟨hi, .inr ⟨hwas, hfail, hn⟩⟩
        exact ⟨fun _ => hi, hwas, hbefore, fun hma => hm ⟨hi, .inl hma⟩⟩
  | started hfail hrun hheld =>
    refine ⟨fun _ _ => hrun, fun i => ?_⟩
    rw [hheld, h.mem_held_iff, missed_append]
    simp only [hfail, hrun, Bool.false_eq_true, false_and, and_false, or_false, true_and]
    constructor
    · rintro (⟨hi, hnew⟩ | ⟨hkept, -, hi, hm⟩)
      · exact ⟨hi, fun hb => hnew (h.running_of_missed i hb.2) hb.2.active⟩
      · exact ⟨hkept hi, fun hb => hm hb.2⟩
    · rintro ⟨hi, hm⟩
      by_cases hwas : a.processor.running = true ∧ i ∈ a.tracker.activeIndices
      · exact .inr ⟨fun _ => hi, hwas.1, hwas.2, fun hma => hm ⟨hi, hma⟩⟩
      · exact .inl ⟨hi, fun hrun hactive => hwas ⟨hrun, hactive⟩⟩

/-- A step of a trial keeps the activated indices accounted for. -/
theorem Accounted.attempt (h : Accounted before a) (family : Family) (t : Trial) :
    Accounted (before ++ [a]) (a.attempt family t) := by
  cases t with
  | failStart fails => exact h.still rfl rfl rfl
  | operate o =>
    rcases apply_cases family a o with hq | hr
    · exact h.still hq.active_eq hq.steady.running_eq hq.held_eq
    · exact h.reconciled hr

/-- A trial keeps the activated indices accounted for. -/
theorem Accounted.attemptAll (h : Accounted before a) (family : Family) (ts : List Trial) :
    ∃ earlier, before ++ a.states family ts = earlier ++ [a.attemptAll family ts] ∧
      Accounted earlier (a.attemptAll family ts) := by
  induction ts generalizing before a with
  | nil => exact ⟨before, by rw [states, List.scanl_nil]; rfl, h⟩
  | cons t ts ih =>
    obtain ⟨earlier, he, hacc⟩ := ih (h.attempt family t)
    refine ⟨earlier, ?_, hacc⟩
    rw [states, List.scanl_cons, List.append_cons]
    exact he

/-! ## Starts that succeed -/

/-- The recorder is serving if it is asked to. -/
def Content (a : Agent Recorder) : Prop :=
  a.processor.running = true ∨ a.tracker.activeIndices = []

/-- The recorder of one agent was told more than that of another, with starts that do not fail; if
it was asked to start it serves as asked, and it goes on to do so. -/
structure Answers (a b : Agent Recorder) : Prop where
  failStart_eq : b.processor.failStart = false
  content : a.Content → b.Content
  content_of_start :
    ∃ new, b.processor.calls = a.processor.calls ++ new ∧ (.start ∈ new → b.Content)

/-- Nothing happened. -/
theorem Answers.refl (hf : a.processor.failStart = false) : a.Answers a :=
  ⟨hf, id, [], (List.append_nil _).symm, fun h => by simp at h⟩

theorem Answers.trans (h : a.Answers b) (k : b.Answers c) : a.Answers c := by
  obtain ⟨new, hnew, hstart⟩ := h.content_of_start
  obtain ⟨new', hnew', hstart'⟩ := k.content_of_start
  refine ⟨k.failStart_eq, k.content ∘ h.content, new ++ new', ?_, fun hm => ?_⟩
  · rw [hnew', hnew, List.append_assoc]
  · rcases List.mem_append.1 hm with hm | hm
    · exact k.content (hstart hm)
    · exact hstart' hm

/-- A quiet step asks for nothing. -/
theorem Quiet.answers (h : a.Quiet b) (hf : a.processor.failStart = false) : a.Answers b := by
  obtain ⟨new, hnew, hstart⟩ := h.calls_eq
  refine ⟨h.steady.failStart_eq.trans hf, ?_, new, hnew, fun hm => absurd hm hstart⟩
  rw [Content, Content, h.steady.running_eq, h.active_eq]
  exact id

/-- After a reconciliation a recorder whose starts do not fail serves as asked. -/
theorem answers_reconcile (family : Family) (hf : a.processor.failStart = false)
    (change : Tracker → Tracker) : a.Answers (a.reconcile (Recorder.lifecycle family) change) := by
  have hcontent : (a.reconcile (Recorder.lifecycle family) change).Content := by
    cases reconciled family a change with
    | stopped hactive => exact .inr hactive
    | failed hfail => exact absurd (hf.symm.trans hfail) (by simp)
    | started _ hrun => exact .inl hrun
  obtain ⟨new, hnew⟩ := calls_reconcile family a change
  exact ⟨(failStart_reconcile family a change).trans hf, fun _ => hcontent, new, hnew.symm,
    fun _ => hcontent⟩

/-- An elementary operation that asks for a start is answered. -/
theorem answers_apply (family : Family) (hf : a.processor.failStart = false) (o : Operation) :
    a.Answers (a.apply (Recorder.lifecycle family) family o) := by
  rcases apply_follows family a o with hq | ⟨a', change, ha, hb⟩
  · exact hq.answers hf
  · have ha' := ha.answers hf
    have hr := answers_reconcile family ha'.failStart_eq change
    exact (ha'.trans hr).trans (hb.answers hr.failStart_eq)

/-- Elementary operations that ask for a start are answered. -/
theorem answers_applyAll (family : Family) (hf : a.processor.failStart = false)
    (os : List Operation) : a.Answers (a.applyAll (Recorder.lifecycle family) family os) := by
  induction os generalizing a with
  | nil => exact .refl hf
  | cons o os ih =>
    have h := answers_apply family hf o
    exact h.trans (ih h.failStart_eq)

end

end Agent

/-! ## Trials of both families -/

namespace Manager

/-- A step of a trial. -/
inductive Trial where
  | operate (o : Operation)
  /-- From now on the starts of a family's recorder fail, or do not. -/
  | failStart (family : Family) (fails : Bool)
  deriving DecidableEq

/-- Decides whether the starts of a family's recorder fail. -/
def setFailStart (m : Manager Recorder Recorder) (family : Family) (fails : Bool) :
    Manager Recorder Recorder :=
  match family with
  | .v4 => { m with v4.processor.failStart := fails }
  | .v6 => { m with v6.processor.failStart := fails }

/-- Takes a step of a trial. -/
def attempt (m : Manager Recorder Recorder) : Trial → Manager Recorder Recorder
  | .operate o => m.apply .dryRun o
  | .failStart family fails => m.setFailStart family fails

/-- Takes the steps of a trial one after another. -/
def attemptAll (m : Manager Recorder Recorder) (ts : List Trial) : Manager Recorder Recorder :=
  ts.foldl attempt m

/-- The agent of a family after a trial from the beginning. -/
def trial (family : Family) (ts : List Trial) : Agent Recorder :=
  ((fresh {} {}).attemptAll ts).agent family

/-- What a step of a trial is to the agent of a family. -/
def Trial.partsFor (family : Family) : Trial → List Agent.Trial
  | .operate o => (o.partsFor family).map .operate
  | .failStart other fails => if other = family then [.failStart fails] else []

/-- The agent of a family before a trial from the beginning and after each elementary step. -/
def trialStates (family : Family) (ts : List Trial) : List (Agent Recorder) :=
  Agent.states family { processor := {} } (ts.flatMap (·.partsFor family))

/-- A step of a trial is so many elementary steps for the agent of a family. -/
theorem agent_attempt (m : Manager Recorder Recorder) (t : Trial) (family : Family) :
    (m.attempt t).agent family = (m.agent family).attemptAll family (t.partsFor family) := by
  cases t with
  | operate o =>
    rw [attempt, agent_apply, Trial.partsFor, Agent.attemptAll, List.foldl_map]
    rfl
  | failStart other fails => cases other <;> cases family <;> rfl

/-- A trial is so many elementary steps for the agent of a family. -/
theorem agent_attemptAll (m : Manager Recorder Recorder) (ts : List Trial) (family : Family) :
    (m.attemptAll ts).agent family =
      (m.agent family).attemptAll family (ts.flatMap (·.partsFor family)) := by
  induction ts generalizing m with
  | nil => rfl
  | cons t ts ih =>
    rw [attemptAll, List.foldl_cons, ← attemptAll, ih, agent_attempt, List.flatMap_cons,
      Agent.attemptAll, Agent.attemptAll, Agent.attemptAll, List.foldl_append]

/-- The activated indices after a trial are accounted for by the states it went through. -/
theorem trial_accounted (family : Family) (ts : List Trial) :
    ∃ earlier, trialStates family ts = earlier ++ [trial family ts] ∧
      Agent.Accounted earlier (trial family ts) := by
  have hfresh : (fresh {} {} : Manager Recorder Recorder).agent family = { processor := {} } := by
    cases family <;> rfl
  rw [trial, agent_attemptAll, hfresh]
  exact Agent.Accounted.fresh.attemptAll family _

/-- After any trial, an operation whose start succeeds and that leaves an active index leaves the
recorder serving, with the active indices activated except those that are missed. So the activated
indices are the active ones exactly when no index is missed. -/
theorem held_eq_active_iff_none_missed (ts : List Trial) (o : Operation) (family : Family)
    (hfail : (trial family ts).processor.failStart = false)
    (hstart : .start ∈ (trial family (ts ++ [.operate o])).processor.calls.drop
      (trial family ts).processor.calls.length)
    (hactive : (trial family (ts ++ [.operate o])).tracker.activeIndices ≠ []) :
    let a := trial family (ts ++ [.operate o])
    a.processor.running = true ∧
    (∀ i, i ∈ a.processor.held.keys ↔
      i ∈ a.tracker.activeIndices ∧ ¬ Agent.Missed (trialStates family (ts ++ [.operate o])) i) ∧
    (a.processor.held.keys = a.tracker.activeIndices ↔
      ∀ i, ¬ Agent.Missed (trialStates family (ts ++ [.operate o])) i) := by
  intro a
  have hlast : a = (trial family ts).applyAll (Recorder.lifecycle family) family
      (o.partsFor family) := by
    show ((attemptAll _ (ts ++ [.operate o])).agent family) = _
    rw [attemptAll, List.foldl_append]
    exact agent_apply _ o family
  have hrun : a.processor.running = true := by
    obtain ⟨new, hnew, hcontent⟩ :=
      (Agent.answers_applyAll family hfail (o.partsFor family)).content_of_start
    rw [← hlast] at hnew hcontent
    have hmem : .start ∈ new := by
      rw [show trial family (ts ++ [.operate o]) = a from rfl, hnew, List.drop_left] at hstart
      exact hstart
    exact (hcontent hmem).resolve_right hactive
  obtain ⟨earlier, hstates, hacc⟩ := trial_accounted family (ts ++ [.operate o])
  rw [hstates]
  have hheld : ∀ i, i ∈ a.processor.held.keys ↔ i ∈ a.tracker.activeIndices ∧
      ¬ Agent.Missed (earlier ++ [a]) i := fun i => by
    rw [hacc.mem_held_iff]
    simp only [a, hrun, true_and]
  refine ⟨hrun, hheld, fun he i hi => ?_, fun hnone => SortedTable.keys_ext fun i => ?_⟩
  · exact ((hheld i).1 (he ▸ hi.active)).2 hi
  · exact (hheld i).trans (and_iff_left (hnone i))

/-- An event of an IPv4 interface. -/
def eventV4 (index : Int) (name : String) (change : Interface.Change) : Operation :=
  .notify { family := .v4, index, name, address := none, change }

/-- A trial in which an interface becomes active while the recorder is serving and its starts fail.
Afterwards they do not fail any more. -/
def lossyTrial : List Trial :=
  [.operate (.configure .v4 (.updateGlobal { enable := true })),
    .operate (eventV4 1 "eth0" (.created true)),
    .operate (.configure .v4 (.updateInterface { name := "eth0", enable := true })),
    .operate (.configure .v4 (.updateInterface { name := "eth1", enable := true })),
    .failStart .v4 true,
    .operate (eventV4 2 "eth1" (.created true)),
    .failStart .v4 false]

/-- After the lossy trial an event that changes nothing has the recorder started, and the interface
is missed. -/
theorem exists_missed_of_lossyTrial :
    let ts := lossyTrial ++ [.operate (eventV4 1 "eth0" (.stateChanged true))]
    (trial .v4 lossyTrial).processor.failStart = false ∧
    .start ∈ (trial .v4 ts).processor.calls.drop (trial .v4 lossyTrial).processor.calls.length ∧
    (trial .v4 ts).tracker.activeIndices = [1, 2] ∧
    ∃ i, Agent.Missed (trialStates .v4 ts) i := by
  refine ⟨by decide, by decide, by decide, Classical.byContradiction fun hnone => ?_⟩
  have h := held_eq_active_iff_none_missed lossyTrial (eventV4 1 "eth0" (.stateChanged true)) .v4
    (by decide) (by decide) (by decide)
  exact absurd (h.2.2.2 fun i hi => hnone ⟨i, hi⟩) (by decide)

/-- A start that succeeds does not always leave the active indices activated. -/
theorem start_leaves_active_not_held :
    ¬ ∀ (ts : List Trial) (o : Operation) (family : Family),
      (trial family ts).processor.failStart = false →
      .start ∈ (trial family (ts ++ [.operate o])).processor.calls.drop
        (trial family ts).processor.calls.length →
      (trial family (ts ++ [.operate o])).tracker.activeIndices ≠ [] →
      (trial family (ts ++ [.operate o])).processor.held.keys =
        (trial family (ts ++ [.operate o])).tracker.activeIndices := by
  intro h
  have hlost := h lossyTrial (eventV4 1 "eth0" (.stateChanged true)) .v4 (by decide) (by decide)
    (by decide)
  exact absurd hlost (by decide)

end Manager

end DhcpRelay
