import DhcpRelay.Proofs.Interleaving
import DhcpRelay.Proofs.Manager.Reload
import DhcpRelay.Proofs.Manager.Serving

/-!
# Configuration and events commute

An operation on a tracker is of one of two kinds. Configuration changes the records and leaves the
tables alone, and what it makes of the records does not depend on the tables; with what is about
interfaces it is the other way round. Since the active set follows from records and tables
(`Tracker.WellFormed.ext`), an operation of one kind commutes with one of the other
(`Tracker.WellFormed.apply_comm`), though the active sets in between have little in common.

A manager that accepts what is configured changes its trackers by just these operations
(`Manager.tracker_run_of_accepted`), and recorders follow their trackers, so it does not matter
whether a configuration is loaded before the interfaces are enumerated, after that or in between
(`Manager.events_commute_with_configuration`). What is accepted depends on the moment: a record with
upstream interfaces needs them to be known.
-/

namespace DhcpRelay

open Interface (Event Property)

/-! ## Operations of a tracker -/

namespace Tracker

/-- An operation changes the configuration: it is not about an interface. -/
def Operation.Configures : Operation → Prop
  | .setGlobal _ | .clearGlobal | .setInterface _ | .removeInterface _ => True
  | .interfaceCreated _ | .interfaceDeleted .. | .interfaceStateChanged .. => False

section
variable {t u : Tracker} {family : Family} {c n o : Operation} {cs ns os : List Operation}

/-- Configuration leaves the tables alone. -/
theorem table_apply_of_configures (hc : c.Configures) (k : Watch.Kind) :
    (t.apply family c).table k = t.table k := by
  cases c with
  | setGlobal c => exact t.table_setGlobal c k
  | clearGlobal => exact t.table_clearGlobal k
  | setInterface c => exact t.table_setInterface c k
  | removeInterface name => exact t.table_removeInterface name k
  | interfaceCreated | interfaceDeleted | interfaceStateChanged => exact hc.elim

/-- What is about interfaces leaves the records alone. -/
theorem records_apply_of_not_configures (t : Tracker) (family : Family) (hn : ¬ n.Configures) :
    (t.apply family n).global = t.global ∧ (t.apply family n).configs = t.configs := by
  cases n with
  | setGlobal | clearGlobal | setInterface | removeInterface => exact absurd trivial hn
  | interfaceCreated p =>
    exact ⟨t.global_interfaceCreated family p, t.configs_interfaceCreated family p⟩
  | interfaceDeleted i address =>
    exact ⟨t.global_interfaceDeleted family i address, t.configs_interfaceDeleted family i address⟩
  | interfaceStateChanged i up address =>
    exact ⟨t.global_interfaceStateChanged family i up address,
      t.configs_interfaceStateChanged family i up address⟩

/-- What configuration makes of the records depends on the records alone. -/
theorem records_apply_congr (family : Family) (hglobal : t.global = u.global)
    (hconfigs : t.configs = u.configs) (hc : c.Configures) :
    (t.apply family c).global = (u.apply family c).global ∧
      (t.apply family c).configs = (u.apply family c).configs := by
  cases c with
  | setGlobal | clearGlobal | setInterface | removeInterface =>
    simp [apply, hglobal, hconfigs]
  | interfaceCreated | interfaceDeleted | interfaceStateChanged => exact hc.elim

/-- Configuration commutes with what is about interfaces. -/
theorem WellFormed.apply_comm (h : t.WellFormed) (hc : c.Configures) (hn : ¬ n.Configures) :
    (t.apply family c).apply family n = (t.apply family n).apply family c := by
  obtain ⟨hglobal, hconfigs⟩ := records_apply_of_not_configures t family hn
  obtain ⟨hglobal', hconfigs'⟩ := records_apply_of_not_configures (t.apply family c) family hn
  obtain ⟨hglobal'', hconfigs''⟩ := records_apply_congr family hglobal hconfigs hc
  have htables : ∀ k, ((t.apply family c).apply family n).table k =
      ((t.apply family n).apply family c).table k := fun k => by
    rw [table_apply_of_configures hc, table_apply_congr (table_apply_of_configures hc)]
  exact ((h.apply family c).apply family n).ext ((h.apply family n).apply family c) htables
    (hglobal'.trans hglobal''.symm) (hconfigs'.trans hconfigs''.symm)

/-- However configuration and what is about interfaces alternate, the tracker is that of the
configuration first. -/
theorem WellFormed.foldl_apply (h : t.WellFormed) (hcs : ∀ c ∈ cs, c.Configures)
    (hns : ∀ n ∈ ns, ¬ n.Configures) (hos : Interleaving cs ns os) :
    os.foldl (Tracker.apply family) t = (cs ++ ns).foldl (Tracker.apply family) t :=
  hos.foldl_eq (fun _ o h => h.apply family o)
    (fun _ h c hc n hn => h.apply_comm (hcs c hc) (hns n hn)) h

end

end Tracker

/-! ## Accepted operations of an agent -/

namespace Agent

section
variable {σ : Type}

/-- Why an elementary operation is rejected, if it is. -/
def rejection? (l : Lifecycle σ) (family : Family) (a : Agent σ) : Operation → Option Rejection
  | .updateGlobal c => rejectionOf? (a.updateGlobal l c).1
  | .createInterface c => rejectionOf? (a.createInterface l family c).1
  | .updateInterface c => rejectionOf? (a.updateInterface l family c).1
  | .deleteGlobal | .deleteInterface _ | .notify _ => none

/-- What is rejected of elementary operations, first to last. -/
def rejections (l : Lifecycle σ) (family : Family) (a : Agent σ) : List Operation → List Rejection
  | [] => []
  | o :: os => (a.rejection? l family o).toList ++ (a.apply l family o).rejections l family os

variable {l : Lifecycle σ} {family : Family} {a : Agent σ} {o : Operation} {os : List Operation}

/-- A record of an interface that has to exist is stored if it is accepted. -/
theorem tracker_updateInterface_of_accepted {c : InterfaceConfig}
    (h : rejectionOf? (a.updateInterface l family c).1 = none) :
    (a.updateInterface l family c).2.tracker = a.tracker.setInterface c := by
  rw [answer_updateInterface] at h
  rw [tracker_updateInterface, Tracker.rejection?, h]
  rfl

/-- An elementary operation that is accepted changes the tracker as it means. -/
theorem tracker_apply_of_accepted (hfamily : ∀ e, o = .notify e → e.family = family)
    (h : a.rejection? l family o = none) :
    (a.apply l family o).tracker = o.change?.toList.foldl (Tracker.apply family) a.tracker := by
  cases o with
  | updateGlobal c =>
    rw [rejection?, answer_updateGlobal] at h
    show (a.updateGlobal l c).2.tracker = _
    rw [tracker_updateGlobal, GlobalConfig.rejection?, h]
    rfl
  | deleteGlobal => exact tracker_reconcile l a _
  | createInterface c =>
    show (a.createInterface l family c).2.tracker = _
    rw [rejection?] at h
    unfold createInterface at h ⊢
    split at h
    · cases h
    · next hknown =>
      rw [if_neg hknown]
      exact tracker_updateInterface_of_accepted h
  | updateInterface c => exact tracker_updateInterface_of_accepted h
  | deleteInterface name => exact tracker_deleteInterface l a name
  | notify e =>
    obtain rfl := hfamily e rfl
    show (a.notify l e).tracker = _
    rw [tracker_notify, Operation.change?]
    cases eventAddress? e with
    | none => rfl
    | some address =>
      dsimp only
      unfold eventChange
      cases e.change <;> rfl

/-- Elementary operations that are accepted change the tracker as they mean. -/
theorem tracker_applyAll_of_accepted (hfamily : ∀ e, .notify e ∈ os → e.family = family)
    (h : a.rejections l family os = []) :
    (a.applyAll l family os).tracker =
      (os.flatMap (·.change?.toList)).foldl (Tracker.apply family) a.tracker := by
  induction os generalizing a with
  | nil => rfl
  | cons o os ih =>
    obtain ⟨ho, hos⟩ := List.append_eq_nil_iff.1 h
    rw [List.flatMap_cons, List.foldl_append, ← tracker_apply_of_accepted (l := l)
      (fun e he => hfamily e (he ▸ List.mem_cons_self)) (Option.toList_eq_nil_iff.1 ho)]
    exact ih (fun e he => hfamily e (List.mem_cons_of_mem o he)) hos

/-! ## Loads -/

/-- What is rejected first comes first. -/
theorem rejections_append (l : Lifecycle σ) (family : Family) (a : Agent σ)
    (os ps : List Operation) : a.rejections l family (os ++ ps) =
      a.rejections l family os ++ (a.applyAll l family os).rejections l family ps := by
  induction os generalizing a with
  | nil => rfl
  | cons o os ih =>
    rw [List.cons_append, rejections, ih, rejections, List.append_assoc]
    rfl

/-- Nothing is rejected of removals. -/
theorem rejections_delete (l : Lifecycle σ) (family : Family) (a : Agent σ) (names : List String) :
    a.rejections l family (names.map .deleteInterface) = [] := by
  induction names generalizing a with
  | nil => rfl
  | cons name names ih => exact ih _

/-- What is rejected of records that are set one after another is rejected of so many updates. -/
theorem Loading.rejected_eq_rejections (l : Lifecycle σ) (family : Family) (s : Loading σ)
    (cs : List InterfaceConfig) : (s.interfaces l family cs).rejected =
      s.rejected ++ s.agent.rejections l family (cs.map .updateInterface) := by
  unfold interfaces
  induction cs generalizing s with
  | nil => exact (List.append_nil _).symm
  | cons c cs ih =>
    rw [List.foldl_cons, ih, rejected_take, agent_take, List.append_assoc]
    rfl

/-- What is rejected of the global part of a load is rejected of its elementary operation. -/
theorem rejections_reloadGlobalParts (l : Lifecycle σ) (family : Family) (a : Agent σ)
    (old new : Option GlobalConfig) :
    a.rejections l family (reloadGlobalParts old new) = (a.reloadGlobal l old new).rejected := by
  have hset : ∀ g, a.rejections l family [.updateGlobal g] =
      (Loading.global l { agent := a } g).rejected := fun g => by
    rw [Loading.global, Loading.rejected_take]
    exact List.append_nil _
  unfold reloadGlobalParts reloadGlobal
  cases old with
  | none =>
    cases new with
    | none => rfl
    | some g => exact hset g
  | some before =>
    cases new with
    | none => rfl
    | some g =>
      dsimp only
      split
      · rfl
      · exact hset g

/-- A load answers what is rejected of its elementary operations. -/
theorem answer_reload (l : Lifecycle σ) (family : Family) (a : Agent σ) (old new : FamilyConfig) :
    (a.reload l family old new).1 = a.rejections l family (reloadParts old new) := by
  rw [reload, Loading.result, Loading.rejected_eq_rejections, reloadParts, rejections_append,
    rejections_append, rejections_reloadGlobalParts, rejections_delete, List.append_nil,
    applyAll_append, ← agent_reloadGlobal, ← Loading.agent_delete]
  rfl

/-- A first configuration has the elementary operations of a load after the empty one. -/
theorem initParts_eq (c : FamilyConfig) : initParts c = reloadParts {} c := by
  have hall : c.interfaces.filter (fun r => ({} : FamilyConfig).find? r.name ≠ some r) =
      c.interfaces := List.filter_eq_self.2 fun r _ => by simp [FamilyConfig.find?]
  rw [initParts, reloadParts, hall]
  cases c.global <;> rfl

/-- A first configuration answers what is rejected of its elementary operations. -/
theorem answer_init (l : Lifecycle σ) (family : Family) (a : Agent σ) (c : FamilyConfig) :
    (a.init l family c).1 = a.rejections l family (initParts c) := by
  rw [init_eq_reload, answer_reload, initParts_eq]

end

/-- What an operator changes is configuration. -/
theorem Operation.Configures.change {o : Operation} (h : o.Configures) {c : Tracker.Operation}
    (hc : c ∈ o.change?.toList) : c.Configures := by
  cases o with
  | notify => exact h.elim
  | updateGlobal | deleteGlobal | createInterface | updateInterface | deleteInterface =>
    obtain rfl := List.mem_singleton.1 hc
    trivial

/-- What an event changes is about an interface. -/
theorem Operation.not_configures_of_notify {e : Event} {c : Tracker.Operation}
    (hc : c ∈ (notify e).change?.toList) : ¬ c.Configures := by
  rw [Option.mem_toList, change?, Option.map_eq_some_iff] at hc
  obtain ⟨address, -, rfl⟩ := hc
  cases e.change <;> exact id

end Agent

/-! ## Accepted operations of the manager -/

namespace Manager

/-- The operations on the tracker of a family. -/
def changesOf (family : Family) (o : Family × Tracker.Operation) : List Tracker.Operation :=
  if o.1 = family then [o.2] else []

/-- The operation on the tracker of a family is the one that is named for it. -/
theorem eq_of_mem_changesOf {family : Family} {o : Family × Tracker.Operation}
    {change : Tracker.Operation} (h : change ∈ changesOf family o) : change = o.2 := by
  unfold changesOf at h
  split at h
  · exact List.mem_singleton.1 h
  · cases h

/-- The changes of the tracker of a family that an operation means. -/
def Operation.changesFor (family : Family) (o : Operation) : List Tracker.Operation :=
  (o.partsFor family).flatMap (·.change?.toList)

section
variable {σ₄ σ₆ : Type}

/-- What an operation answers as rejected, first to last. -/
def rejections (l : Lifecycles σ₄ σ₆) (m : Manager σ₄ σ₆) : Operation → List Rejection
  | .configure family o =>
    match o with
    | .updateGlobal c => (rejectionOf? (m.updateGlobal l family c).1).toList
    | .createInterface c => (rejectionOf? (m.createInterface l family c).1).toList
    | .updateInterface c => (rejectionOf? (m.updateInterface l family c).1).toList
    | .deleteGlobal | .deleteInterface _ => []
    | .init c => (m.init l family c).1
    | .reload old new => (m.reload l family old new).1
  | .notify _ => []

/-- Nothing is rejected of operations that are carried out one after another. -/
def Accepted (l : Lifecycles σ₄ σ₆) (m : Manager σ₄ σ₆) : List Operation → Prop
  | [] => True
  | o :: os => m.rejections l o = [] ∧ (m.apply l o).Accepted l os

variable {l : Lifecycles σ₄ σ₆} {m : Manager σ₄ σ₆}

/-- An operation answers what is rejected of its elementary operations. -/
theorem rejections_eq (l : Lifecycles σ₄ σ₆) (m : Manager σ₄ σ₆) (o : Operation) :
    m.rejections l o = (m.onAgent l o.family fun l a =>
      (a.rejections l o.family o.parts, a.applyAll l o.family o.parts)).1 := by
  have hone : ∀ x : Option Rejection, x.toList = x.toList ++ [] := fun x =>
    (List.append_nil _).symm
  cases o with
  | notify e =>
    unfold onAgent
    generalize (Operation.notify e).family = family
    cases family <;> rfl
  | configure family o =>
    cases o with
    | updateGlobal | createInterface | updateInterface => cases family <;> exact hone _
    | deleteGlobal | deleteInterface => cases family <;> rfl
    | init c => cases family <;> exact Agent.answer_init ..
    | reload old new => cases family <;> exact Agent.answer_reload ..

/-- An operation that is accepted changes the trackers as it means. -/
theorem tracker_apply_of_accepted {o : Operation} (h : m.rejections l o = []) (family : Family) :
    (m.apply l o).tracker family =
      (o.changesFor family).foldl (Tracker.apply family) (m.tracker family) := by
  rw [Operation.changesFor, Operation.partsFor]
  by_cases hfamily : o.family = family
  · have hevents : ∀ e, .notify e ∈ o.parts → e.family = o.family := fun e he => by
      cases o with
      | notify e' =>
        cases List.mem_singleton.1 he
        rfl
      | configure _ o => exact (o.configures _ he).elim
    have hsame : (m.onAgent l o.family fun l a => ((), a.applyAll l o.family o.parts)).2 =
        (m.onAgent l o.family fun l a =>
          (a.rejections l o.family o.parts, a.applyAll l o.family o.parts)).2 :=
      onAgent_snd_congr fun _ _ => rfl
    subst hfamily
    rw [rejections_eq] at h
    rw [if_pos rfl, apply_eq, hsame]
    exact onAgent_spec (P := fun t t' rejected => rejected = [] →
        t' = (o.parts.flatMap (·.change?.toList)).foldl (Tracker.apply o.family) t) l m o.family
      (fun l a => Agent.tracker_applyAll_of_accepted hevents) h
  · rw [if_neg hfamily, tracker_apply_of_ne l m hfamily]
    rfl

/-- A run of which nothing is rejected changes the trackers as its operations mean. -/
theorem tracker_run_of_accepted {os : List Operation} (h : m.Accepted l os) (family : Family) :
    (m.run l os).tracker family =
      (os.flatMap (·.changesFor family)).foldl (Tracker.apply family) (m.tracker family) := by
  induction os generalizing m with
  | nil => rfl
  | cons o os ih =>
    rw [List.flatMap_cons, List.foldl_append, ← tracker_apply_of_accepted h.1]
    exact ih h.2

/-- Operations on trackers reach those of their family. -/
theorem tracker_changeTrackers (m : Manager σ₄ σ₆) (ops : List (Family × Tracker.Operation))
    (family : Family) : (m.changeTrackers ops).tracker family =
      (ops.flatMap (changesOf family)).foldl (Tracker.apply family) (m.tracker family) := by
  unfold changeTrackers
  induction ops generalizing m with
  | nil => rfl
  | cons o ops ih =>
    rw [List.foldl_cons, ih, List.flatMap_cons, List.foldl_append, tracker_onTracker, changesOf]
    by_cases ho : o.1 = family
    · rw [if_pos ho, if_pos ho.symm, ho]
      rfl
    · rw [if_neg ho, if_neg (Ne.symm ho)]
      rfl

end

/-! ## Interleavings -/

/-- The changes of an operator's operation are configuration. -/
theorem configures_of_mem_changesFor {family : Family} {c : Family × ConfigOperation}
    {change : Tracker.Operation}
    (h : change ∈ (Operation.configure c.1 c.2).changesFor family) : change.Configures := by
  obtain ⟨part, hpart, hchange⟩ := List.mem_flatMap.1 h
  unfold Operation.partsFor at hpart
  split at hpart
  · exact (c.2.configures part hpart).change hchange
  · cases hpart

/-- The changes of an event are about its interface. -/
theorem not_configures_of_mem_changesFor {family : Family} {e : Event} {change : Tracker.Operation}
    (h : change ∈ (Operation.notify e).changesFor family) : ¬ change.Configures := by
  obtain ⟨part, hpart, hchange⟩ := List.mem_flatMap.1 h
  unfold Operation.partsFor at hpart
  split at hpart
  · obtain rfl := List.mem_singleton.1 hpart
    exact Agent.Operation.not_configures_of_notify hchange
  · cases hpart

/-- However the operations of an operator and events alternate, if all are accepted, the trackers
are those of all the configuration before all the events. -/
theorem tracker_run_of_interleaving {σ₄ σ₆ : Type} {l : Lifecycles σ₄ σ₆} {m : Manager σ₄ σ₆}
    {cs : List (Family × ConfigOperation)} {es : List Event} {os : List Operation}
    (hm : ∀ family, (m.tracker family).WellFormed)
    (hos : Interleaving (cs.map fun c => .configure c.1 c.2) (es.map .notify) os)
    (h : m.Accepted l os) (family : Family) :
    (m.run l os).tracker family =
      (((cs.map fun c => .configure c.1 c.2).flatMap (Operation.changesFor family)) ++
        (es.map .notify).flatMap (Operation.changesFor family)).foldl (Tracker.apply family)
          (m.tracker family) := by
  rw [tracker_run_of_accepted h]
  refine (hm family).foldl_apply (fun change hc => ?_) (fun change hn => ?_) (hos.flatMap _)
  · obtain ⟨o, ho, hchange⟩ := List.mem_flatMap.1 hc
    obtain ⟨c, -, rfl⟩ := List.mem_map.1 ho
    exact configures_of_mem_changesFor hchange
  · obtain ⟨o, ho, hchange⟩ := List.mem_flatMap.1 hn
    obtain ⟨e, -, rfl⟩ := List.mem_map.1 ho
    exact not_configures_of_mem_changesFor hchange

/-- Configuration and events commute. From fresh trackers, all ways to carry out the same changes of
the configuration and the same changes of interfaces, each in their own order, end in the same
trackers, with their tables, records and active sets.

From fresh recorders whose starts do not fail, all ways to carry out the same operations of an
operator and the same events, if nothing is rejected, also end with recorders that are alike: both
serve or neither does, they hold the same indices, and they have records of the same interfaces. -/
theorem events_commute_with_configuration :
    (∀ {σ₄ σ₆ : Type} (p₄ : σ₄) (p₆ : σ₆) {cs ns os os' : List (Family × Tracker.Operation)},
      (∀ c ∈ cs, c.2.Configures) → (∀ n ∈ ns, ¬ n.2.Configures) →
      Interleaving cs ns os → Interleaving cs ns os' →
      ∀ family, ((fresh p₄ p₆).changeTrackers os).tracker family =
        ((fresh p₄ p₆).changeTrackers os').tracker family) ∧
    ∀ {cs : List (Family × ConfigOperation)} {es : List Event} {os os' : List Operation},
      Interleaving (cs.map fun c => .configure c.1 c.2) (es.map .notify) os →
      Interleaving (cs.map fun c => .configure c.1 c.2) (es.map .notify) os' →
      (fresh {} {}).Accepted .dryRun os → (fresh {} {}).Accepted .dryRun os' →
      ∀ family,
        let a := ((fresh {} {}).run .dryRun os).agent family
        let b := ((fresh {} {}).run .dryRun os').agent family
        a.tracker = b.tracker ∧ a.processor.running = b.processor.running ∧
          a.processor.held = b.processor.held ∧
          a.processor.interfaces = b.processor.interfaces := by
  constructor
  · intro σ₄ σ₆ p₄ p₆ cs ns os os' hcs hns hos hos' family
    have hc : ∀ c ∈ cs.flatMap (changesOf family), c.Configures := fun c hc => by
      obtain ⟨o, ho, hchange⟩ := List.mem_flatMap.1 hc
      exact eq_of_mem_changesOf hchange ▸ hcs o ho
    have hn : ∀ n ∈ ns.flatMap (changesOf family), ¬ n.Configures := fun n hn => by
      obtain ⟨o, ho, hchange⟩ := List.mem_flatMap.1 hn
      exact eq_of_mem_changesOf hchange ▸ hns o ho
    have hfresh := wellFormed_fresh p₄ p₆ family
    rw [tracker_changeTrackers, tracker_changeTrackers, hfresh.foldl_apply hc hn (hos.flatMap _),
      hfresh.foldl_apply hc hn (hos'.flatMap _)]
  · intro cs es os os' hos hos' h h' family
    have hfresh (family : Family) :
        ((fresh {} {} : Manager Recorder Recorder).tracker family).WellFormed :=
      wellFormed_fresh _ _ family
    have htracker : (((fresh {} {}).run .dryRun os).agent family).tracker =
        (((fresh {} {}).run .dryRun os').agent family).tracker := by
      rw [tracker_agent, tracker_agent, tracker_run_of_interleaving hfresh hos h,
        tracker_run_of_interleaving hfresh hos' h']
    exact ⟨htracker, recorder_eq_of_tracker_eq os os' rfl rfl htracker⟩

/-- An operator enables the family and the interface `eth0`. -/
def enableEth0 : List (Family × ConfigOperation) :=
  [(.v4, .updateGlobal (.enabled 32)),
    (.v4, .updateInterface { name := "eth0", enable := true, servers := ["10.0.0.2"] })]

/-- The interface `eth0` comes up, disappears, and comes up at another index. -/
def eth0Moves : List Event :=
  [linkUp 1 "eth0", { linkUp 1 "eth0" with change := .deleted }, linkUp 2 "eth0"]

/-- Configured first, the interface is served twice; configured last, it is served once. The
trackers and what the recorders hold at the end are the same. -/
theorem recorders_agree_on_eth0Moves :
    let configured := enableEth0.map fun c => Operation.configure c.1 c.2
    let events := eth0Moves.map Operation.notify
    let a := ((fresh {} {}).run .dryRun (configured ++ events)).agent .v4
    let b := ((fresh {} {}).run .dryRun (events ++ configured)).agent .v4
    (fresh {} {}).Accepted .dryRun (configured ++ events) ∧
      (fresh {} {}).Accepted .dryRun (events ++ configured) ∧
      a.processor.starts = 2 ∧ b.processor.starts = 1 ∧ b.processor.held.keys = [2] ∧
      a.tracker = b.tracker ∧ a.processor.running = b.processor.running ∧
      a.processor.held = b.processor.held ∧ a.processor.interfaces = b.processor.interfaces := by
  intro configured events a b
  have haccepted : (fresh {} {}).Accepted .dryRun (configured ++ events) :=
    ⟨rfl, rfl, rfl, rfl, rfl, trivial⟩
  have haccepted' : (fresh {} {}).Accepted .dryRun (events ++ configured) :=
    ⟨rfl, rfl, rfl, rfl, rfl, trivial⟩
  exact ⟨haccepted, haccepted', by decide, by decide, by decide,
    events_commute_with_configuration.2 (.append configured events)
      (Interleaving.append events configured).symm haccepted haccepted' .v4⟩

end Manager

end DhcpRelay
