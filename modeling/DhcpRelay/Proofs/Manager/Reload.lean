import DhcpRelay.Proofs.Manager.Coupling
import DhcpRelay.Proofs.Manager.Loading

/-!
# A reload applies the difference

A configuration is in force when the tracker holds its records and no others (`Tracker.InForce`). A
reload from a configuration that is in force puts the new one in force but for what it rejects, and
answers just that.

If nothing is rejected, the way to a configuration does not matter. The tables come from the events
alone, since no configuration touches them (`Manager.table_run`); the active set follows from tables
and records (`Tracker.WellFormed.ext`); and a recorder whose starts do not fail is what its tracker
asks for (`Agent.Coupled.ext`). So deactivations, stops and restarts in between leave no trace
(`Manager.reload_applies_difference`).
-/

namespace DhcpRelay

open Interface (Event Property PropertyTable)

/-! ## Configurations in force -/

namespace Tracker

/-- The tracker holds the records of a configuration and no others. -/
structure InForce (t : Tracker) (c : FamilyConfig) : Prop where
  global_eq : t.global = c.global
  get?_eq_some_iff : ∀ name r, t.configs.get? name = some r ↔ r ∈ c.interfaces ∧ r.name = name

section
variable {t u : Tracker} {c old new : FamilyConfig} {family : Family} {rejected : List Rejection}

/-- Under every name a configuration in force has what it finds there. -/
theorem InForce.get?_eq (h : t.InForce c) (hc : c.Distinct) (name : String) :
    t.configs.get? name = c.find? name := by
  refine Option.ext fun r => ?_
  rw [h.get?_eq_some_iff, hc.find?_eq_some_iff]

/-- What is found under every name is in force. -/
theorem InForce.of_get?_eq (hc : c.Distinct) (hglobal : t.global = c.global)
    (hget : ∀ name, t.configs.get? name = c.find? name) : t.InForce c :=
  ⟨hglobal, fun name r => by rw [hget, hc.find?_eq_some_iff]⟩

namespace Loaded

/-- The global record becomes the new one, unless that changed and is rejected. -/
theorem global_of_inForce (h : Loaded family old new t u rejected) (hin : t.InForce old) :
    u.global =
      if new.global ≠ old.global ∧ (new.global.bind GlobalConfig.rejection?).isSome then t.global
      else new.global := by
  rw [h.global_eq]
  by_cases hg : new.global = old.global
  · rw [if_pos (.inl hg), if_neg fun hne => hne.1 hg, hin.global_eq, hg]
  · simp [hg]

/-- A name that the new configuration does not list has no record. -/
theorem get?_of_unlisted (h : Loaded family old new t u rejected) (hold : old.Distinct)
    (hin : t.InForce old) {name : String} (hn : ∀ c ∈ new.interfaces, c.name ≠ name) :
    u.configs.get? name = none := by
  rw [h.get?_unlisted name (FamilyConfig.find?_eq_none_iff.2 hn), hin.get?_eq hold]
  cases old.find? name <;> rfl

/-- A record that was there before or is accepted is stored. -/
theorem get?_of_kept (h : Loaded family old new t u rejected) (hin : t.InForce old)
    {r : InterfaceConfig} (hr : r ∈ new.interfaces)
    (hkept : r ∈ old.interfaces ∨ t.rejection? family r = none) :
    u.configs.get? r.name = some r := by
  rw [h.get?_listed r hr]
  by_cases ho : r ∈ old.interfaces
  · rw [if_neg fun h => h.1 ho, hin.get?_eq_some_iff]
    exact ⟨ho, rfl⟩
  · rw [if_pos ⟨ho, hkept.resolve_left ho⟩]

/-- A load that rejects nothing, after a configuration that is in force, puts the new one in
force. -/
theorem inForce (h : Loaded family old new t u []) (hold : old.Distinct) (hnew : new.Distinct)
    (hin : t.InForce old) : u.InForce new := by
  obtain ⟨hglobal, hrecords⟩ := List.append_eq_nil_iff.1 h.rejected_eq.symm
  refine .of_get?_eq hnew ?_ fun name => ?_
  · rw [h.global_of_inForce hin]
    by_cases hg : new.global = old.global
    · rw [if_neg fun hne => hne.1 hg]
    · rw [if_neg hg] at hglobal
      rw [if_neg (by simp [Option.toList_eq_nil_iff.1 hglobal])]
  · cases hn : new.find? name with
    | none => exact h.get?_of_unlisted hold hin (FamilyConfig.find?_eq_none_iff.1 hn)
    | some r =>
      obtain ⟨hr, rfl⟩ := hnew.find?_eq_some_iff.1 hn
      refine h.get?_of_kept hin hr (or_iff_not_imp_left.2 fun ho => ?_)
      simpa [ho] using List.filterMap_eq_nil_iff.1 hrecords r hr

end Loaded

/-- Well-formed trackers that hold the same records and the same tables are equal: the active set
follows from both. -/
theorem WellFormed.ext (ht : t.WellFormed) (hu : u.WellFormed)
    (htables : ∀ k, t.table k = u.table k) (hglobal : t.global = u.global)
    (hconfigs : t.configs = u.configs) : t = u := by
  have hprops : t.props = u.props := htables .main
  have hlinkLocal : t.linkLocal = u.linkLocal := htables .linkLocal
  have hactive : t.active = u.active := SortedTable.ext_get? fun i => by
    rw [ht.active_eq, hu.active_eq]
    exact configAt?_congr (by rw [hprops]) (fun _ _ => by rw [hconfigs]) hglobal
  cases t
  cases u
  simp only at hprops hlinkLocal hglobal hconfigs hactive
  subst hprops hlinkLocal hglobal hconfigs hactive
  rfl

end

end Tracker

/-! ## Events -/

namespace Agent

section
variable {t u : Tracker} (e : Event) (address : Option Cidr)

/-- An event leaves the global record alone. -/
@[simp] theorem global_eventChange : (eventChange e address t).global = t.global := by
  unfold eventChange
  split <;> simp

/-- An event leaves the interface records alone. -/
@[simp] theorem configs_eventChange : (eventChange e address t).configs = t.configs := by
  unfold eventChange
  split <;> simp

/-- What an event makes of the tables depends on the tables alone. -/
theorem table_eventChange_congr (h : ∀ k, t.table k = u.table k) (k : Watch.Kind) :
    (eventChange e address t).table k = (eventChange e address u).table k := by
  unfold eventChange
  cases e.change with
  | created up => exact Tracker.table_apply_congr h e.family (.interfaceCreated _) k
  | deleted => exact Tracker.table_apply_congr h e.family (.interfaceDeleted _ _) k
  | stateChanged up => exact Tracker.table_apply_congr h e.family (.interfaceStateChanged _ _ _) k

end

/-! ## Recorders that follow the same tracker -/

/-- Coupled recorders that follow the same tracker are alike: both serve or neither does, they hold
the same indices, and they have records of the same interfaces. -/
theorem Coupled.ext {a b : Agent Recorder} (ha : a.Coupled) (hb : b.Coupled)
    (hra : a.Registered) (hrb : b.Registered) (h : a.tracker = b.tracker) :
    a.processor.running = b.processor.running ∧ a.processor.held = b.processor.held ∧
      a.processor.interfaces = b.processor.interfaces := by
  refine ⟨?_, ?_, ?_⟩
  · rw [Bool.eq_iff_iff, ha.running_iff, hb.running_iff, h]
  · exact SortedTable.ext_keys (by rw [ha.held_eq, hb.held_eq, h])
  · exact SortedTable.ext_keys (SortedTable.keys_ext fun name => by rw [hra, hrb, h])

end Agent

/-! ## Runs of the manager -/

namespace Manager

/-- The event that an operation takes, if it takes one. -/
def Operation.event? : Operation → Option Event
  | .notify e => some e
  | .configure _ _ => none

section
variable {σ₄ σ₆ : Type} {l : Lifecycles σ₄ σ₆} {m n : Manager σ₄ σ₆}

/-- What an event makes of the tables depends on the tables alone. -/
theorem table_notify_congr (h : ∀ f k, m.table f k = n.table f k) (e : Event) (f : Family)
    (k : Watch.Kind) : (m.notify l e).table f k = (n.notify l e).table f k := by
  rw [table, table, tracker_notify, tracker_notify]
  split
  · split
    · exact h f k
    · exact Agent.table_eventChange_congr e _ (h f) k
  · exact h f k

/-- The tables after a run are those after its events alone. -/
theorem table_run (h : ∀ f k, m.table f k = n.table f k) (os : List Operation) (f : Family)
    (k : Watch.Kind) :
    (m.run l os).table f k = (n.notifyAll l (os.filterMap Operation.event?)).table f k := by
  induction os generalizing m n with
  | nil => exact h f k
  | cons o os ih =>
    cases o with
    | notify e => exact ih fun f k => table_notify_congr h e f k
    | configure family o =>
      exact ih fun f k => (table_configure l m family o f k).trans (h f k)

/-- An event leaves the global records alone. -/
@[simp] theorem global_notify (l : Lifecycles σ₄ σ₆) (m : Manager σ₄ σ₆) (e : Event) (f : Family) :
    ((m.notify l e).tracker f).global = (m.tracker f).global := by
  rw [tracker_notify]
  split
  · split
    · rfl
    · exact Agent.global_eventChange e _
  · rfl

/-- An event leaves the interface records alone. -/
@[simp] theorem configs_notify (l : Lifecycles σ₄ σ₆) (m : Manager σ₄ σ₆) (e : Event) (f : Family) :
    ((m.notify l e).tracker f).configs = (m.tracker f).configs := by
  rw [tracker_notify]
  split
  · split
    · rfl
    · exact Agent.configs_eventChange e _
  · rfl

/-- Events leave what is configured alone. -/
theorem inForce_notifyAll {c : FamilyConfig} {f : Family} (h : (m.tracker f).InForce c)
    (es : List Event) : ((m.notifyAll l es).tracker f).InForce c := by
  unfold notifyAll
  induction es generalizing m with
  | nil => exact h
  | cons e es ih =>
    refine ih ⟨?_, fun name r => ?_⟩
    · rw [global_notify, h.global_eq]
    · rw [configs_notify, h.get?_eq_some_iff]

/-- At the beginning nothing is configured. -/
theorem inForce_fresh (p₄ : σ₄) (p₆ : σ₆) (f : Family) : ((fresh p₄ p₆).tracker f).InForce {} := by
  refine .of_get?_eq List.nodup_nil ?_ fun name => ?_ <;> cases f <;> rfl

end

/-! ## From the beginning -/

/-- A run with one more operation. -/
theorem run_concat {σ₄ σ₆ : Type} (l : Lifecycles σ₄ σ₆) (m : Manager σ₄ σ₆) (os : List Operation)
    (o : Operation) : m.run l (os ++ [o]) = (m.run l os).apply l o :=
  List.foldl_concat ..

/-- The tracker of an agent is that of its family. -/
@[simp] theorem tracker_agent {σ : Type} (m : Manager σ σ) (family : Family) :
    (m.agent family).tracker = m.tracker family := by
  cases family <;> rfl

/-- The agents of recorders after a run from the beginning: the tracker is well-formed, and the
recorder is what it asks for. -/
theorem coupled_run (os : List Operation) (family : Family) :
    let a := ((fresh {} {}).run .dryRun os).agent family
    a.tracker.WellFormed ∧ a.Coupled ∧ a.Registered := by
  intro a
  have hfresh : (fresh {} {} : Manager Recorder Recorder).agent family = { processor := {} } := by
    cases family <;> rfl
  have ha : a = Agent.applyAll (Recorder.lifecycle family) family { processor := {} }
      (os.flatMap (·.partsFor family)) := hfresh ▸ agent_run (fresh {} {}) os family
  rw [ha]
  exact ⟨Agent.wellFormed_applyAll .empty _, (Agent.Coupled.fresh.applyAll family _).1,
    Agent.Registered.applyAll (fun _ => Iff.rfl) family _⟩

/-- Agents of recorders that two runs from the beginning bring to the same tracker are alike. -/
theorem recorder_eq_of_tracker_eq {family : Family} (os os' : List Operation)
    {a b : Agent Recorder} (ha : a = ((fresh {} {}).run .dryRun os).agent family)
    (hb : b = ((fresh {} {}).run .dryRun os').agent family) (h : a.tracker = b.tracker) :
    a.processor.running = b.processor.running ∧ a.processor.held = b.processor.held ∧
      a.processor.interfaces = b.processor.interfaces := by
  obtain ⟨-, hcoupled, hregistered⟩ := coupled_run os family
  obtain ⟨-, hcoupled', hregistered'⟩ := coupled_run os' family
  subst ha hb
  exact hcoupled.ext hcoupled' hregistered hregistered' h

/-- Recorders that take events and then, for the first time, a configuration. -/
def fromScratch (family : Family) (es : List Event) (c : FamilyConfig) :
    List Rejection × Manager Recorder Recorder :=
  ((fresh {} {}).notifyAll .dryRun es).init .dryRun family c

section
variable {family : Family} {es : List Event} {c : FamilyConfig}

/-- Taking events and then a configuration is a run. -/
theorem fromScratch_eq_run (family : Family) (es : List Event) (c : FamilyConfig) :
    (fromScratch family es c).2 =
      (fresh {} {}).run .dryRun (es.map .notify ++ [.configure family (.init c)]) := by
  rw [run_concat, run, List.foldl_map]
  rfl

/-- A first configuration that is wholly accepted is in force. -/
theorem inForce_fromScratch (hc : c.Distinct) (h : (fromScratch family es c).1 = []) :
    ((fromScratch family es c).2.tracker family).InForce c := by
  have hempty : ({} : FamilyConfig).Distinct := List.nodup_nil
  have hload := loaded_reload .dryRun ((fresh {} {}).notifyAll .dryRun es) family hempty hc
  rw [← init_eq_reload] at hload
  change Tracker.Loaded family {} c _ _ (fromScratch family es c).1 at hload
  rw [h] at hload
  exact hload.inForce hempty hc (inForce_notifyAll (inForce_fresh _ _ family) es)

/-- The tables are those of the events. -/
theorem table_fromScratch (family : Family) (es : List Event) (c : FamilyConfig) (f : Family)
    (k : Watch.Kind) :
    (fromScratch family es c).2.table f k = ((fresh {} {}).notifyAll .dryRun es).table f k :=
  table_configure .dryRun _ family (.init c) f k

end

/-! ## Reloads -/

/-- If nothing is rejected, a reload leaves the tracker that the same events and the new
configuration alone would have brought about. -/
theorem tracker_reload_eq_fromScratch {family : Family} {old new : FamilyConfig}
    (hold : old.Distinct) (hnew : new.Distinct) (os : List Operation)
    (hin : (((fresh {} {}).run .dryRun os).tracker family).InForce old)
    (hloaded : (((fresh {} {}).run .dryRun os).reload .dryRun family old new).1 = [])
    (hanew : (fromScratch family (os.filterMap Operation.event?) new).1 = []) :
    (((fresh {} {}).run .dryRun os).reload .dryRun family old new).2.tracker family =
      (fromScratch family (os.filterMap Operation.event?) new).2.tracker family := by
  obtain ⟨hwf, -⟩ := coupled_run (os ++ [.configure family (.reload old new)]) family
  obtain ⟨hwf', -⟩ := coupled_run
    ((os.filterMap Operation.event?).map .notify ++ [.configure family (.init new)]) family
  rw [run_concat, tracker_agent] at hwf
  rw [← fromScratch_eq_run, tracker_agent] at hwf'
  have hin₁ := loaded_reload .dryRun ((fresh {} {}).run .dryRun os) family hold hnew
  rw [hloaded] at hin₁
  replace hin₁ := hin₁.inForce hold hnew hin
  have hin₂ := inForce_fromScratch hnew hanew
  refine hwf.ext hwf' (fun k => ?_) ?_ ?_
  · calc (((fresh {} {}).run .dryRun os).reload .dryRun family old new).2.table family k
      _ = ((fresh {} {}).run .dryRun os).table family k :=
        table_configure .dryRun _ family (.reload old new) family k
      _ = ((fresh {} {}).notifyAll .dryRun (os.filterMap Operation.event?)).table family k :=
        table_run (fun _ _ => rfl) os family k
      _ = (fromScratch family (os.filterMap Operation.event?) new).2.table family k :=
        (table_fromScratch family _ new family k).symm
  · exact hin₁.global_eq.trans hin₂.global_eq.symm
  · exact SortedTable.ext_get? fun name =>
      (hin₁.get?_eq hnew name).trans (hin₂.get?_eq hnew name).symm

/-- A reload from a configuration that is in force: the global record is the new one, unless that
changed and is rejected; a name that the new configuration does not list has no record; a record of
the new one is stored if it was there before or is accepted, and otherwise leaves its name what it
had; and what is answered are the rejections of changed records, the global one first and then in
the order of the list.

If nothing is rejected, recorders whose starts do not fail end up as if the same events had been
taken from the beginning and the new configuration applied then for the first time. -/
theorem reload_applies_difference (family : Family) {old new : FamilyConfig}
    (hold : old.Distinct) (hnew : new.Distinct) :
    (∀ {σ₄ σ₆ : Type} (l : Lifecycles σ₄ σ₆) (m : Manager σ₄ σ₆),
      (m.tracker family).InForce old →
      let t := m.tracker family
      let loaded := m.reload l family old new
      let t' := loaded.2.tracker family
      t'.global =
        (if new.global ≠ old.global ∧ (new.global.bind GlobalConfig.rejection?).isSome then t.global
        else new.global) ∧
      (∀ name, (∀ c ∈ new.interfaces, c.name ≠ name) → t'.configs.get? name = none) ∧
      (∀ c ∈ new.interfaces, c ∈ old.interfaces ∨ t.rejection? family c = none →
        t'.configs.get? c.name = some c) ∧
      (∀ c ∈ new.interfaces, c ∉ old.interfaces → t.rejection? family c ≠ none →
        t'.configs.get? c.name = t.configs.get? c.name) ∧
      loaded.1 =
        (if new.global = old.global then none
          else new.global.bind GlobalConfig.rejection?).toList ++
        new.interfaces.filterMap fun c =>
          if c ∈ old.interfaces then none else t.rejection? family c) ∧
    ∀ os : List Operation,
      let m := (fresh {} {}).run .dryRun os
      let loaded := m.reload .dryRun family old new
      let anew := fromScratch family (os.filterMap Operation.event?) new
      (m.tracker family).InForce old → loaded.1 = [] → anew.1 = [] →
      let a := loaded.2.agent family
      let b := anew.2.agent family
      a.tracker = b.tracker ∧ a.processor.running = b.processor.running ∧
        a.processor.held = b.processor.held ∧ a.processor.interfaces = b.processor.interfaces := by
  refine ⟨fun l m hin => ?_, fun os hin hloaded hanew => ?_⟩
  · have h := loaded_reload l m family hold hnew
    refine ⟨h.global_of_inForce hin, fun name => h.get?_of_unlisted hold hin,
      fun c => h.get?_of_kept hin, fun c hc _ hr => ?_, h.rejected_eq⟩
    rw [h.get?_listed c hc, if_neg fun hc => hr hc.2]
  · have htracker := tracker_reload_eq_fromScratch hold hnew os hin hloaded hanew
    rw [← tracker_agent, ← tracker_agent] at htracker
    refine ⟨htracker, recorder_eq_of_tracker_eq (os ++ [.configure family (.reload old new)]) _ ?_
      (congrArg (agent · family) (fromScratch_eq_run family _ new)) htracker⟩
    rw [run_concat]
    rfl

/-- An interface that comes up. -/
def linkUp (index : Int) (name : String) : Event :=
  { family := .v4, index, name, address := none, change := .created true }

/-- A configuration of one enabled interface. -/
def oneInterface (name : String) (hopCountLimit : UInt8) : FamilyConfig :=
  ⟨some (.enabled hopCountLimit), [{ name, enable := true, servers := ["10.0.0.2"] }]⟩

/-- Two interfaces come up, and the first of them is configured. -/
def oneOfTwo : List Operation :=
  [.notify (linkUp 1 "eth0"), .notify (linkUp 2 "eth1"),
    .configure .v4 (.init (oneInterface "eth0" 32))]

/-- Of two interfaces that are up, the one that was active gives way to the other. The recorder is
as if it had never been active. -/
theorem reload_replaces_interface :
    let old := oneInterface "eth0" 32
    let new := oneInterface "eth1" 16
    let m := (fresh {} {}).run .dryRun oneOfTwo
    let loaded := m.reload .dryRun .v4 old new
    let anew := fromScratch .v4 (oneOfTwo.filterMap Operation.event?) new
    old.Distinct ∧ new.Distinct ∧ (m.tracker .v4).InForce old ∧ loaded.1 = [] ∧ anew.1 = [] ∧
      (m.agent .v4).processor.held.keys = [1] ∧ (anew.2.agent .v4).processor.held.keys = [2] ∧
      (loaded.2.tracker .v4).configs.get? "eth0" = none ∧
      (loaded.2.agent .v4).tracker = (anew.2.agent .v4).tracker ∧
      (loaded.2.agent .v4).processor.held = (anew.2.agent .v4).processor.held := by
  have hold : (oneInterface "eth0" 32).Distinct := by decide
  have hnew : (oneInterface "eth1" 16).Distinct := by decide
  have hin : (((fresh {} {}).run .dryRun oneOfTwo).tracker .v4).InForce (oneInterface "eth0" 32) :=
    inForce_fromScratch hold (show (fromScratch .v4 [linkUp 1 "eth0", linkUp 2 "eth1"] _).1 = [] by
      decide)
  have h := reload_applies_difference .v4 hold hnew
  have hloaded := h.1 .dryRun _ hin
  have hanew := h.2 oneOfTwo hin (by decide) (by decide)
  exact ⟨hold, hnew, hin, by decide, by decide, by decide, by decide,
    hloaded.2.1 "eth0" (by decide), hanew.1, hanew.2.2.1⟩

end Manager

end DhcpRelay
