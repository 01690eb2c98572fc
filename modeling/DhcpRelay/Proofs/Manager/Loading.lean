import DhcpRelay.Proofs.Manager.Tables
import Mathlib.Data.List.Nodup

/-!
# What loading a configuration does to a tracker

A load compares a new configuration with an old one, not with what the tracker holds: a record that
stands in both is passed over, a name that only the old one lists is removed, and every other record
of the new one is stored if it meets the rules and answered as rejected if not. `Tracker.Loaded`
says so for any tracker, whatever the old configuration has to do with it
(`Manager.loaded_reload`). The first configuration is a load that starts from the empty one
(`Manager.init_eq_reload`).

Which records meet the rules depends on the link-local table alone, and no load changes that table,
so all records are judged by the tracker as the load finds it.
-/

namespace DhcpRelay

open Interface (Event Property)

/-! ## Configurations without repetition -/

namespace FamilyConfig

/-- No two records are of the same interface. -/
def Distinct (c : FamilyConfig) : Prop := (c.interfaces.map (·.name)).Nodup

instance (c : FamilyConfig) : Decidable c.Distinct :=
  inferInstanceAs (Decidable (c.interfaces.map (·.name)).Nodup)

section
variable {c : FamilyConfig} {r : InterfaceConfig} {name : String}

/-- A name has no record exactly when no record has that name. -/
theorem find?_eq_none_iff : c.find? name = none ↔ ∀ r ∈ c.interfaces, r.name ≠ name := by
  simp [find?]

/-- The record that is found has the name. -/
theorem name_eq_of_find? (h : c.find? name = some r) : r.name = name := by
  simpa using List.find?_some h

/-- Among distinct records a name has the one record of that name. -/
theorem Distinct.find?_eq_some_iff (h : c.Distinct) :
    c.find? name = some r ↔ r ∈ c.interfaces ∧ r.name = name := by
  refine ⟨fun hf => ⟨List.mem_of_find?_eq_some hf, name_eq_of_find? hf⟩, ?_⟩
  rintro ⟨hr, rfl⟩
  cases hf : c.find? r.name with
  | none => exact absurd rfl (find?_eq_none_iff.1 hf r hr)
  | some r' =>
    have hr' := List.mem_of_find?_eq_some hf
    rw [List.inj_on_of_nodup_map h hr' hr (name_eq_of_find? hf)]

/-- A distinct configuration holds a record exactly when it finds it under its name. -/
theorem Distinct.find?_name_iff (h : c.Distinct) : c.find? r.name = some r ↔ r ∈ c.interfaces :=
  h.find?_eq_some_iff.trans (and_iff_left rfl)

end

/-! ## Differences -/

/-- The names that only the old configuration lists. -/
def droppedBy (old new : FamilyConfig) : List String :=
  (old.interfaces.filter fun c => (new.find? c.name).isNone).map (·.name)

/-- The records of the new configuration that the old one does not find as they are. -/
def changedFrom (new old : FamilyConfig) : List InterfaceConfig :=
  new.interfaces.filter fun c => old.find? c.name ≠ some c

section
variable {old new : FamilyConfig}

/-- A name is dropped if the old configuration finds it and the new one does not. -/
theorem mem_droppedBy {name : String} :
    name ∈ old.droppedBy new ↔ (old.find? name).isSome ∧ new.find? name = none := by
  simp only [droppedBy, List.mem_map, List.mem_filter, Option.isNone_iff_eq_none]
  constructor
  · rintro ⟨c, ⟨hc, hn⟩, rfl⟩
    exact ⟨Option.isSome_iff_ne_none.2 fun ho => find?_eq_none_iff.1 ho c hc rfl, hn⟩
  · rintro ⟨ho, hn⟩
    obtain ⟨c, hc⟩ := Option.isSome_iff_exists.1 ho
    obtain rfl := name_eq_of_find? hc
    exact ⟨c, ⟨List.mem_of_find?_eq_some hc, hn⟩, rfl⟩

/-- A record of the new configuration is changed if a distinct old one does not hold it. -/
theorem Distinct.mem_changedFrom (hold : old.Distinct) {c : InterfaceConfig} :
    c ∈ new.changedFrom old ↔ c ∈ new.interfaces ∧ c ∉ old.interfaces := by
  simp only [changedFrom, List.mem_filter, decide_eq_true_eq, hold.find?_name_iff, ne_eq]

/-- The changed records of a distinct configuration are of different interfaces. -/
theorem Distinct.nodup_changedFrom (hnew : new.Distinct) (old : FamilyConfig) :
    ((new.changedFrom old).map (·.name)).Nodup :=
  List.Nodup.sublist (List.Sublist.map _ List.filter_sublist) hnew

/-- A function of the changed records is one of the new records that passes over those of the old
configuration. -/
theorem Distinct.filterMap_changedFrom {α : Type} (hold : old.Distinct)
    (f : InterfaceConfig → Option α) : (new.changedFrom old).filterMap f =
      new.interfaces.filterMap fun c => if c ∈ old.interfaces then none else f c := by
  rw [changedFrom, List.filterMap_filter]
  congr 1
  funext c
  by_cases hc : c ∈ old.interfaces <;> simp [hold.find?_name_iff, hc]

end

end FamilyConfig

/-! ## Rejections -/

/-- The rejection that an answer brings, if it is one. -/
def rejectionOf? : Except Rejection Unit → Option Rejection
  | .error e => some e
  | .ok () => none

/-- Why a global record is rejected, if it is. -/
def GlobalConfig.rejection? (c : GlobalConfig) : Option Rejection := rejectionOf? c.validate

/-- Why a tracker rejects an interface record, if it does. -/
def Tracker.rejection? (t : Tracker) (family : Family) (c : InterfaceConfig) : Option Rejection :=
  rejectionOf? (t.validateInterface family c)

namespace Tracker

section
variable {t u : Tracker}

/-- Upstream interfaces are judged by the link-local table alone. -/
theorem validateUpstreamsAfter_congr (h : t.linkLocal = u.linkLocal) (seen names : List String) :
    t.validateUpstreamsAfter seen names = u.validateUpstreamsAfter seen names := by
  induction names generalizing seen with
  | nil => rfl
  | cons name names ih => simp only [validateUpstreamsAfter, h, ih]

/-- Interface records are judged by the link-local table alone. -/
theorem validateInterface_congr (h : t.linkLocal = u.linkLocal) (family : Family)
    (c : InterfaceConfig) : t.validateInterface family c = u.validateInterface family c := by
  simp only [validateInterface, validateUpstreams, validateUpstreamsAfter_congr h]

/-- Interface records are rejected by the link-local table alone. -/
theorem rejection?_congr (h : t.linkLocal = u.linkLocal) (family : Family) :
    t.rejection? family = u.rejection? family := by
  funext c
  rw [rejection?, rejection?, validateInterface_congr h]

/-! ## Global records -/

variable (t)

@[simp] theorem global_setGlobal (c : GlobalConfig) : (t.setGlobal c).global = some c := by
  rw [setGlobal, global_rebuild]

@[simp] theorem global_clearGlobal : t.clearGlobal.global = none := rfl

@[simp] theorem global_reevaluateName (name : String) :
    (t.reevaluateName name).global = t.global := by
  unfold reevaluateName; split <;> simp

@[simp] theorem global_setInterface (c : InterfaceConfig) :
    (t.setInterface c).global = t.global := by
  rw [setInterface, global_reevaluateName]

@[simp] theorem global_removeInterface (name : String) :
    (t.removeInterface name).global = t.global := by
  rw [removeInterface, global_reevaluateName]

@[simp] theorem global_interfaceCreated (family : Family) (p : Property) :
    (t.interfaceCreated family p).global = t.global := by
  rw [interfaceCreated_eq]
  unfold reevaluateEvicted
  split <;> split <;> simp

@[simp] theorem global_onTables (r : Reach)
    (f : Interface.PropertyTable → Interface.PropertyTable) :
    (t.onTables r f).global = t.global := by
  cases r <;> rfl

@[simp] theorem global_interfaceDeleted (family : Family) (i : Int) (address : Option IpAddress) :
    (t.interfaceDeleted family i address).global = t.global := by
  simp [interfaceDeleted]

@[simp] theorem global_interfaceStateChanged (family : Family) (i : Int) (up : Bool)
    (address : Option IpAddress) :
    (t.interfaceStateChanged family i up address).global = t.global := by
  simp [interfaceStateChanged]

end

/-! ## Loads -/

/-- What a load of `new` after `old` makes of a tracker, and what it answers as rejected. -/
structure Loaded (family : Family) (old new : FamilyConfig) (t t' : Tracker)
    (rejected : List Rejection) : Prop where
  table_eq : ∀ k, t'.table k = t.table k
  global_eq : t'.global =
    if new.global = old.global ∨ (new.global.bind GlobalConfig.rejection?).isSome then t.global
    else new.global
  get?_unlisted : ∀ name, new.find? name = none →
    t'.configs.get? name = if (old.find? name).isSome then none else t.configs.get? name
  get?_listed : ∀ c ∈ new.interfaces, t'.configs.get? c.name =
    if c ∉ old.interfaces ∧ t.rejection? family c = none then some c else t.configs.get? c.name
  rejected_eq : rejected =
    (if new.global = old.global then none else new.global.bind GlobalConfig.rejection?).toList ++
      new.interfaces.filterMap fun c => if c ∈ old.interfaces then none else t.rejection? family c

end Tracker

namespace Agent

section
variable {σ : Type} {l : Lifecycle σ} {family : Family} {a : Agent σ}

/-! ## Single records -/

/-- A global record is stored unless it is rejected. -/
theorem tracker_updateGlobal (l : Lifecycle σ) (a : Agent σ) (c : GlobalConfig) :
    (a.updateGlobal l c).2.tracker =
      if c.rejection?.isSome then a.tracker else a.tracker.setGlobal c := by
  unfold updateGlobal GlobalConfig.rejection?
  cases c.validate with
  | error e => rfl
  | ok => exact tracker_reconcile l a _

/-- The answer to a global record is that of its check. -/
theorem answer_updateGlobal (l : Lifecycle σ) (a : Agent σ) (c : GlobalConfig) :
    (a.updateGlobal l c).1 = c.validate := by
  unfold updateGlobal
  cases c.validate <;> rfl

/-- An interface record is stored unless it is rejected. -/
theorem tracker_updateInterface (l : Lifecycle σ) (family : Family) (a : Agent σ)
    (c : InterfaceConfig) : (a.updateInterface l family c).2.tracker =
      if (a.tracker.rejection? family c).isSome then a.tracker else a.tracker.setInterface c := by
  unfold Tracker.rejection?
  cases hv : a.tracker.validateInterface family c with
  | error e => rw [updateInterface_of_error hv]; rfl
  | ok =>
    rw [updateInterface_of_ok hv]
    show Agent.tracker (if _ then _ else _) = a.tracker.setInterface c
    split
    · rfl
    · rw [tracker_reconcile, tracker_announce]

/-- The answer to an interface record is that of its check. -/
theorem answer_updateInterface (l : Lifecycle σ) (family : Family) (a : Agent σ)
    (c : InterfaceConfig) :
    (a.updateInterface l family c).1 = a.tracker.validateInterface family c := by
  cases hv : a.tracker.validateInterface family c with
  | error e => rw [updateInterface_of_error hv]
  | ok => rw [updateInterface_of_ok hv]

/-- A removal reaches the tracker whatever the processor does. -/
theorem tracker_deleteInterface (l : Lifecycle σ) (a : Agent σ) (name : String) :
    (a.deleteInterface l name).tracker = a.tracker.removeInterface name :=
  tracker_reconcile l a _

namespace Loading

variable {s : Loading σ}

/-- What an update rejects comes after what was rejected before it. -/
theorem rejected_take (s : Loading σ) (r : Except Rejection Unit × Agent σ) :
    (s.take r).rejected = s.rejected ++ (rejectionOf? r.1).toList := by
  obtain ⟨answer, agent⟩ := r
  cases answer with
  | error e => rfl
  | ok => exact (List.append_nil _).symm

/-! ## The global record -/

/-- The global part of a load looks at the record only if it changed. -/
theorem rejected_reloadGlobal (l : Lifecycle σ) (a : Agent σ) (old new : Option GlobalConfig) :
    (a.reloadGlobal l old new).rejected =
      (if new = old then none else new.bind GlobalConfig.rejection?).toList := by
  have hset : ∀ g, (Loading.global l { agent := a } g).rejected =
      ((some g).bind GlobalConfig.rejection?).toList := fun g => by
    rw [Loading.global, rejected_take, answer_updateGlobal]
    rfl
  cases old with
  | none => cases new with
    | none => rfl
    | some g => exact hset g
  | some before => cases new with
    | none => rfl
    | some g =>
      unfold reloadGlobal
      by_cases h : before = g
      · simp [h]
      · rw [if_neg fun he => h (Option.some.inj he).symm]
        simpa only [if_neg h] using hset g

/-- The global record is the new one, unless that is the old one or rejected. -/
theorem global_reloadGlobal (l : Lifecycle σ) (a : Agent σ) (old new : Option GlobalConfig) :
    (a.reloadGlobal l old new).agent.tracker.global =
      if new = old ∨ (new.bind GlobalConfig.rejection?).isSome then a.tracker.global else new := by
  have hset : ∀ g, (Loading.global l { agent := a } g).agent.tracker.global =
      if g.rejection?.isSome then a.tracker.global else some g := fun g => by
    rw [Loading.global, agent_take, tracker_updateGlobal]
    split
    · rfl
    · exact a.tracker.global_setGlobal g
  cases old with
  | none => cases new with
    | none => rfl
    | some g => simpa [reloadGlobal] using hset g
  | some before => cases new with
    | none => simp [reloadGlobal, deleteGlobal]
    | some g =>
      unfold reloadGlobal
      by_cases h : before = g
      · simp [h]
      · simpa [h, Ne.symm h] using hset g

/-- The global part of a load leaves the interface records alone. -/
theorem configs_reloadGlobal (l : Lifecycle σ) (a : Agent σ) (old new : Option GlobalConfig) :
    (a.reloadGlobal l old new).agent.tracker.configs = a.tracker.configs := by
  have hset : ∀ g, (Loading.global l { agent := a } g).agent.tracker.configs =
      a.tracker.configs := fun g => by
    rw [Loading.global, agent_take, tracker_updateGlobal]
    split
    · rfl
    · exact a.tracker.configs_setGlobal g
  unfold reloadGlobal
  split
  · show (a.deleteGlobal l).tracker.configs = a.tracker.configs
    rw [deleteGlobal, tracker_reconcile, Tracker.configs_clearGlobal]
  · exact hset _
  · split
    · rfl
    · exact hset _
  · rfl

/-! ## Removed interfaces -/

/-- Removals leave the global record alone. -/
theorem global_delete (l : Lifecycle σ) (s : Loading σ) (names : List String) :
    (s.delete l names).agent.tracker.global = s.agent.tracker.global := by
  simp only [delete]
  generalize s.agent = a
  induction names generalizing a with
  | nil => rfl
  | cons name names ih =>
    rw [List.foldl_cons, ih, tracker_deleteInterface, Tracker.global_removeInterface]

/-- Removals take exactly the records of their names. -/
theorem get?_delete (l : Lifecycle σ) (s : Loading σ) (names : List String) (name : String) :
    (s.delete l names).agent.tracker.configs.get? name =
      if name ∈ names then none else s.agent.tracker.configs.get? name := by
  simp only [delete]
  generalize s.agent = a
  induction names generalizing a with
  | nil => simp
  | cons n names ih =>
    rw [List.foldl_cons, ih, tracker_deleteInterface, Tracker.configs_removeInterface,
      SortedTable.get?_erase_eq]
    by_cases hn : name = n <;> by_cases hm : name ∈ names <;> simp [hn, hm]

/-! ## Interface records -/

/-- Setting records leaves the tables alone. -/
theorem table_interfaces (l : Lifecycle σ) (family : Family) (s : Loading σ)
    (cs : List InterfaceConfig) (k : Watch.Kind) :
    (s.interfaces l family cs).agent.tracker.table k = s.agent.tracker.table k := by
  rw [agent_interfaces]
  refine table_applyAll (fun o ho => ?_) k
  obtain ⟨c, -, rfl⟩ := List.mem_map.1 ho
  trivial

/-- Setting records leaves the global record alone. -/
theorem global_interfaces (l : Lifecycle σ) (family : Family) (s : Loading σ)
    (cs : List InterfaceConfig) :
    (s.interfaces l family cs).agent.tracker.global = s.agent.tracker.global := by
  unfold interfaces
  induction cs generalizing s with
  | nil => rfl
  | cons c cs ih =>
    rw [List.foldl_cons, ih, agent_take, tracker_updateInterface]
    split
    · rfl
    · exact s.agent.tracker.global_setInterface c

/-- After one record has been set, records are judged as before. -/
theorem rejection?_take (l : Lifecycle σ) (family : Family) (s : Loading σ) (c : InterfaceConfig) :
    (s.take (s.agent.updateInterface l family c)).agent.tracker.rejection? family =
      s.agent.tracker.rejection? family := by
  refine Tracker.rejection?_congr ?_ family
  rw [agent_take]
  exact table_updateInterface l family s.agent c .linkLocal

/-- What is rejected of records that are set one after another, first to last. -/
theorem rejected_interfaces (l : Lifecycle σ) (family : Family) (s : Loading σ)
    (cs : List InterfaceConfig) : (s.interfaces l family cs).rejected =
      s.rejected ++ cs.filterMap (s.agent.tracker.rejection? family) := by
  unfold interfaces
  induction cs generalizing s with
  | nil => exact (List.append_nil _).symm
  | cons c cs ih =>
    rw [List.foldl_cons, ih, rejection?_take, rejected_take, answer_updateInterface,
      List.filterMap_cons, List.append_assoc]
    show _ ++ ((s.agent.tracker.rejection? family c).toList ++ _) = _
    cases s.agent.tracker.rejection? family c <;> rfl

/-- A name that no record has keeps what is stored under it. -/
theorem get?_interfaces_of_notMem (l : Lifecycle σ) (family : Family) (s : Loading σ)
    {cs : List InterfaceConfig} {name : String} (h : name ∉ cs.map (·.name)) :
    (s.interfaces l family cs).agent.tracker.configs.get? name =
      s.agent.tracker.configs.get? name := by
  unfold interfaces
  induction cs generalizing s with
  | nil => rfl
  | cons c cs ih =>
    obtain ⟨hc, hcs⟩ := not_or.1 fun hm => h (List.mem_cons.2 hm)
    rw [List.foldl_cons, ih _ hcs, agent_take, tracker_updateInterface]
    split
    · rfl
    · rw [Tracker.configs_setInterface, SortedTable.get?_insert_of_ne _ _ hc]

/-- Of records that are all of different interfaces each is stored unless it is rejected. -/
theorem get?_interfaces_of_mem (l : Lifecycle σ) (family : Family) (s : Loading σ)
    {cs : List InterfaceConfig} (hn : (cs.map (·.name)).Nodup) {c : InterfaceConfig} (hc : c ∈ cs) :
    (s.interfaces l family cs).agent.tracker.configs.get? c.name =
      if s.agent.tracker.rejection? family c = none then some c
      else s.agent.tracker.configs.get? c.name := by
  induction cs generalizing s with
  | nil => cases hc
  | cons d cs ih =>
    obtain ⟨hd, hcs⟩ := List.nodup_cons.1 hn
    show (Loading.interfaces l family (s.take (s.agent.updateInterface l family d))
      cs).agent.tracker.configs.get? c.name = _
    rcases List.mem_cons.1 hc with rfl | hc
    · rw [get?_interfaces_of_notMem l family _ hd, agent_take, tracker_updateInterface]
      cases s.agent.tracker.rejection? family c with
      | some e => rfl
      | none => simp
    · have hne : c.name ≠ d.name := fun he => hd (List.mem_map.2 ⟨c, hc, he⟩)
      rw [ih _ hcs hc, rejection?_take]
      congr 1
      rw [agent_take, tracker_updateInterface]
      split
      · rfl
      · rw [Tracker.configs_setInterface, SortedTable.get?_insert_of_ne _ _ hne]

end Loading

/-! ## The whole of a load -/

/-- A load that has dealt with the global record and the removed interfaces. -/
def cleared (l : Lifecycle σ) (a : Agent σ) (old new : FamilyConfig) : Loading σ :=
  (a.reloadGlobal l old.global new.global).delete l (old.droppedBy new)

/-- What is left of a load then is to set the changed records. -/
theorem reload_eq_interfaces (l : Lifecycle σ) (family : Family) (a : Agent σ)
    (old new : FamilyConfig) : a.reload l family old new =
      ((a.cleared l old new).interfaces l family (new.changedFrom old)).result := rfl

/-- Up to there a load leaves the tables alone. -/
theorem table_cleared (l : Lifecycle σ) (a : Agent σ) (old new : FamilyConfig) (k : Watch.Kind) :
    (a.cleared l old new).agent.tracker.table k = a.tracker.table k := by
  have hparts : (a.cleared l old new).agent = a.applyAll l .v4
      (reloadGlobalParts old.global new.global ++ (old.droppedBy new).map .deleteInterface) := by
    rw [applyAll_append, ← agent_reloadGlobal, ← Loading.agent_delete]
    rfl
  rw [hparts]
  exact table_applyAll (fun o ho => (Manager.ConfigOperation.reload old new).configures o
    (List.mem_append_left _ ho)) k

/-- Up to there only the dropped names have lost what was stored under them. -/
theorem get?_cleared (l : Lifecycle σ) (a : Agent σ) (old new : FamilyConfig) (name : String) :
    (a.cleared l old new).agent.tracker.configs.get? name =
      if name ∈ old.droppedBy new then none else a.tracker.configs.get? name := by
  rw [cleared, Loading.get?_delete, Loading.configs_reloadGlobal]

/-- Up to there records are judged as before. -/
theorem rejection?_cleared (l : Lifecycle σ) (family : Family) (a : Agent σ)
    (old new : FamilyConfig) :
    (a.cleared l old new).agent.tracker.rejection? family = a.tracker.rejection? family :=
  Tracker.rejection?_congr (a.table_cleared l old new .linkLocal) family

/-- After a load the global record is the new one, unless that is the old one or rejected. -/
theorem global_reload (l : Lifecycle σ) (family : Family) (a : Agent σ) (old new : FamilyConfig) :
    (a.reload l family old new).2.tracker.global =
      if new.global = old.global ∨ (new.global.bind GlobalConfig.rejection?).isSome then
        a.tracker.global
      else new.global := by
  rw [reload_eq_interfaces, Loading.result, Loading.global_interfaces, cleared,
    Loading.global_delete, Loading.global_reloadGlobal]

/-- After a load a name that is not listed any more has no record. -/
theorem get?_reload_of_unlisted (l : Lifecycle σ) (family : Family) (a : Agent σ)
    {old new : FamilyConfig} {name : String} (h : new.find? name = none) :
    (a.reload l family old new).2.tracker.configs.get? name =
      if (old.find? name).isSome then none else a.tracker.configs.get? name := by
  have hnot : name ∉ (new.changedFrom old).map (·.name) := fun hm => by
    obtain ⟨c, hc, hcn⟩ := List.mem_map.1 hm
    exact FamilyConfig.find?_eq_none_iff.1 h c (List.mem_filter.1 hc).1 hcn
  rw [reload_eq_interfaces, Loading.result, Loading.get?_interfaces_of_notMem l family _ hnot,
    get?_cleared]
  simp only [FamilyConfig.mem_droppedBy, h, and_true]

/-- After a load of distinct records one that changed is stored unless it is rejected. -/
theorem get?_reload_of_changed (l : Lifecycle σ) (family : Family) (a : Agent σ)
    {old new : FamilyConfig} (hnew : new.Distinct) {c : InterfaceConfig} (hc : c ∈ new.interfaces)
    (hchanged : old.find? c.name ≠ some c) :
    (a.reload l family old new).2.tracker.configs.get? c.name =
      if a.tracker.rejection? family c = none then some c else a.tracker.configs.get? c.name := by
  have hkept : c.name ∉ old.droppedBy new := fun hm =>
    FamilyConfig.find?_eq_none_iff.1 (FamilyConfig.mem_droppedBy.1 hm).2 c hc rfl
  have hmem : c ∈ new.changedFrom old := List.mem_filter.2 ⟨hc, decide_eq_true hchanged⟩
  rw [reload_eq_interfaces, Loading.result,
    Loading.get?_interfaces_of_mem l family _ (hnew.nodup_changedFrom old) hmem, get?_cleared,
    if_neg hkept, rejection?_cleared]

/-- A load looks at the records that the old configuration does not hold, removes the names that
only the old one lists, and leaves everything else alone. -/
theorem loaded_reload (l : Lifecycle σ) (a : Agent σ) {old new : FamilyConfig}
    (hold : old.Distinct) (hnew : new.Distinct) :
    Tracker.Loaded family old new a.tracker (a.reload l family old new).2.tracker
      (a.reload l family old new).1 := by
  refine ⟨fun k => ?_, ?_, fun name hn => ?_, fun c hc => ?_, ?_⟩
  · exact (Loading.table_interfaces l family _ _ k).trans (a.table_cleared l old new k)
  · exact a.global_reload l family old new
  · exact a.get?_reload_of_unlisted l family hn
  · by_cases ho : c ∈ old.interfaces
    · have hkept : c.name ∉ old.droppedBy new := fun hm =>
        FamilyConfig.find?_eq_none_iff.1 (FamilyConfig.mem_droppedBy.1 hm).2 c hc rfl
      have hnot : c.name ∉ (new.changedFrom old).map (·.name) := fun hm => by
        obtain ⟨d, hd, hdc⟩ := List.mem_map.1 hm
        obtain ⟨hdn, hdo⟩ := hold.mem_changedFrom.1 hd
        exact hdo (List.inj_on_of_nodup_map hnew hdn hc hdc ▸ ho)
      rw [reload_eq_interfaces, Loading.result, Loading.get?_interfaces_of_notMem l family _ hnot,
        get?_cleared, if_neg hkept, if_neg fun h => h.1 ho]
    · have hchanged : old.find? c.name ≠ some c := fun h => ho (hold.find?_name_iff.1 h)
      have hstored := a.get?_reload_of_changed l family hnew hc hchanged
      simpa [ho] using hstored
  · rw [reload_eq_interfaces, Loading.result, Loading.rejected_interfaces, rejection?_cleared,
      hold.filterMap_changedFrom]
    exact congrArg (· ++ _) (Loading.rejected_reloadGlobal l a old.global new.global)

/-- The first configuration is a load after the empty one. -/
theorem init_eq_reload (l : Lifecycle σ) (family : Family) (a : Agent σ) (c : FamilyConfig) :
    a.init l family c = a.reload l family {} c := by
  have hall : c.interfaces.filter (fun r => ({} : FamilyConfig).find? r.name ≠ some r) =
      c.interfaces := List.filter_eq_self.2 fun r _ => by simp [FamilyConfig.find?]
  unfold reload
  rw [hall]
  unfold init reloadGlobal
  cases c.global <;> rfl

end

end Agent

/-! ## Loads of the manager -/

namespace Manager

section
variable {σ₄ σ₆ : Type}

/-- What an operation on the agent of a family does to its tracker, and what it answers, whatever
the processor is. -/
theorem onAgent_spec {α : Type} {P : Tracker → Tracker → α → Prop} (l : Lifecycles σ₄ σ₆)
    (m : Manager σ₄ σ₆) (family : Family) {f : ∀ {σ : Type}, Lifecycle σ → Agent σ → α × Agent σ}
    (h : ∀ {σ : Type} (l : Lifecycle σ) (a : Agent σ), P a.tracker (f l a).2.tracker (f l a).1) :
    P (m.tracker family) ((m.onAgent l family f).2.tracker family) (m.onAgent l family f).1 := by
  cases family
  · exact h l.v4 m.v4
  · exact h l.v6 m.v6

/-- A load looks at the records that the old configuration does not hold, removes the names that
only the old one lists, and leaves everything else alone. -/
theorem loaded_reload (l : Lifecycles σ₄ σ₆) (m : Manager σ₄ σ₆) (family : Family)
    {old new : FamilyConfig} (hold : old.Distinct) (hnew : new.Distinct) :
    Tracker.Loaded family old new (m.tracker family) ((m.reload l family old new).2.tracker family)
      (m.reload l family old new).1 :=
  onAgent_spec (P := Tracker.Loaded family old new) l m family
    fun l a => a.loaded_reload l hold hnew

/-- The first configuration is a load after the empty one. -/
theorem init_eq_reload (l : Lifecycles σ₄ σ₆) (m : Manager σ₄ σ₆) (family : Family)
    (c : FamilyConfig) : m.init l family c = m.reload l family {} c := by
  unfold init reload
  simp only [Agent.init_eq_reload]

end

end Manager

end DhcpRelay
