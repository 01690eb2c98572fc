import DhcpRelay.Proofs.Manager.Upkeep

/-!
# Files that list a name more than once

Nothing keeps a file from listing different records of one interface. What it finds under the name
is the first of them (`FamilyConfig.find?`), and this is what the records of the next file are
compared with. But a load sets records one after another, so of those that it sets the last one
stays in force. A record of the next file that stands first in the file before it is then passed
over although another one is in force: it is shadowed (`Shadowed`).

If a chain of files has nothing rejected, the records in force are the last ones that it sets
(`LoadedInFull.get?_eq`), and a name is shadowed only if some file of the chain lists different
records of one name (`not_shadowed_of_uniform`).
-/

namespace DhcpRelay

open Interface (Event)

/-- The last record of a name. -/
def lastNamed (rs : List InterfaceConfig) (name : String) : Option InterfaceConfig :=
  rs.reverse.find? (·.name == name)

section
variable {rs qs : List InterfaceConfig} {r : InterfaceConfig} {name : String}

theorem lastNamed_append :
    lastNamed (rs ++ qs) name = (lastNamed qs name).or (lastNamed rs name) := by
  rw [lastNamed, List.reverse_append, List.find?_append, ← lastNamed, ← lastNamed]

theorem lastNamed_eq_none_iff : lastNamed rs name = none ↔ ∀ r ∈ rs, r.name ≠ name := by
  simp [lastNamed]

theorem of_lastNamed (h : lastNamed rs name = some r) : r ∈ rs ∧ r.name = name :=
  ⟨List.mem_reverse.1 (List.mem_of_find?_eq_some h), by simpa using List.find?_some h⟩

end

namespace FamilyConfig

/-- Under the name of every record that is listed this record is found. -/
def Uniform (c : FamilyConfig) : Prop := ∀ r ∈ c.interfaces, c.find? r.name = some r

end FamilyConfig

/-! ## What a chain of files sets -/

/-- The records that the loads of a chain of files set, first to last: those of each file that the
file before it does not find as they are. -/
def setRecords (files : List FamilyConfig) : List InterfaceConfig :=
  (History.steps {} files).flatMap fun step => step.2.changedFrom step.1

theorem setRecords_append_singleton (files : List FamilyConfig) (file : FamilyConfig) :
    setRecords (files ++ [file]) =
      setRecords files ++ file.changedFrom (files.getLastD {}) := by
  rw [setRecords, History.steps_append, List.flatMap_append, ← setRecords]
  exact congrArg _ (List.flatMap_singleton ..)

/-- The last file of a chain finds a record under a name, and the last record of the name that the
chain sets is another one. -/
def Shadowed (files : List FamilyConfig) (name : String) : Prop :=
  ∃ r, (files.getLastD {}).find? name = some r ∧ lastNamed (setRecords files) name ≠ some r

/-- Of a record that is found and has not changed the file before it finds the same. -/
theorem FamilyConfig.find?_of_lastNamed_changedFrom {old new : FamilyConfig} {name : String}
    {r : InterfaceConfig} (hr : new.find? name = some r)
    (h : lastNamed (new.changedFrom old) name = none) : old.find? name = some r := by
  obtain rfl := name_eq_of_find? hr
  refine Classical.byContradiction fun hne => ?_
  have hmem : r ∈ new.changedFrom old :=
    List.mem_filter.2 ⟨List.mem_of_find?_eq_some hr, decide_eq_true hne⟩
  exact lastNamed_eq_none_iff.1 h r hmem rfl

/-- Where no file lists different records of one name, no name is shadowed. -/
theorem not_shadowed_of_uniform {files : List FamilyConfig} (h : ∀ file ∈ files, file.Uniform)
    (name : String) : ¬ Shadowed files name := by
  induction files using List.reverseRecOn with
  | nil =>
    rintro ⟨r, hr, -⟩
    cases hr
  | append_singleton files file ih =>
    rintro ⟨r, hr, hne⟩
    rw [List.getLastD_concat] at hr
    rw [setRecords_append_singleton, lastNamed_append] at hne
    cases hset : lastNamed (file.changedFrom (files.getLastD {})) name with
    | some r' =>
      obtain ⟨hmem, rfl⟩ := of_lastNamed hset
      have hfound := h file (by simp) r' (List.mem_filter.1 hmem).1
      exact hne (by rw [hset, ← hr, hfound]; rfl)
    | none =>
      have hold := FamilyConfig.find?_of_lastNamed_changedFrom hr hset
      rw [hset, Option.none_or] at hne
      exact ih (fun f hf => h f (List.mem_append_left _ hf)) ⟨r, hold, hne⟩

/-! ## What a load that rejects nothing does -/

namespace Agent

section
variable {σ : Type} {l : Lifecycle σ} {family : Family}

/-- Of records that are all accepted the last one of a name is stored. -/
theorem Loading.get?_interfaces_of_accepted (s : Loading σ) {cs : List InterfaceConfig}
    (h : ∀ c ∈ cs, s.agent.tracker.rejection? family c = none) (name : String) :
    (s.interfaces l family cs).agent.tracker.configs.get? name =
      (lastNamed cs name).or (s.agent.tracker.configs.get? name) := by
  induction cs generalizing s with
  | nil => rfl
  | cons c cs ih =>
    have hc := h c List.mem_cons_self
    show (Loading.interfaces l family (s.take (s.agent.updateInterface l family c))
      cs).agent.tracker.configs.get? name = _
    rw [ih _ fun d hd => by rw [rejection?_take]; exact h d (List.mem_cons_of_mem c hd),
      agent_take, tracker_updateInterface, hc, ← List.singleton_append, lastNamed_append,
      Option.or_assoc]
    congr 1
    by_cases hn : name = c.name
    · simp [lastNamed, hn]
    · simp [lastNamed, Ne.symm hn, SortedTable.get?_insert_of_ne _ _ hn]

/-- A load that rejects nothing leaves under a name the last record that it sets there, and where it
sets none what was stored, unless the name was dropped. -/
theorem get?_reload_of_accepted (a : Agent σ) {old new : FamilyConfig}
    (h : (a.reload l family old new).1 = []) (name : String) :
    (a.reload l family old new).2.tracker.configs.get? name =
      (lastNamed (new.changedFrom old) name).or
        (if name ∈ old.droppedBy new then none else a.tracker.configs.get? name) := by
  rw [reload_eq_interfaces, Loading.result, Loading.rejected_interfaces] at h
  have haccepted := List.filterMap_eq_nil_iff.1 (List.append_eq_nil_iff.1 h).2
  rw [reload_eq_interfaces, Loading.result, Loading.get?_interfaces_of_accepted _ haccepted,
    get?_cleared]

end

end Agent

namespace Manager

open Managed

section
variable {σ₄ σ₆ : Type} {l : Lifecycles σ₄ σ₆} {family : Family} {m : Manager σ₄ σ₆}
  {files : List FamilyConfig} {s : Managed σ₄ σ₆}

theorem get?_reload_of_accepted {old new : FamilyConfig}
    (h : (m.reload l family old new).1 = []) (name : String) :
    ((m.reload l family old new).2.tracker family).configs.get? name =
      (lastNamed (new.changedFrom old) name).or
        (if name ∈ old.droppedBy new then none else (m.tracker family).configs.get? name) :=
  onAgent_spec (P := fun t u rejected => rejected = [] → u.configs.get? name =
      (lastNamed (new.changedFrom old) name).or
        (if name ∈ old.droppedBy new then none else t.configs.get? name)) l m family
    (fun _ a h => a.get?_reload_of_accepted h name) h

/-- Events configure nothing. -/
theorem get?_notifyAll_fresh (l : Lifecycles σ₄ σ₆) (p₄ : σ₄) (p₆ : σ₆) (es : List Event)
    (family : Family) (name : String) :
    (((fresh p₄ p₆).notifyAll l es).tracker family).configs.get? name = none :=
  (inForce_notifyAll (inForce_fresh p₄ p₆ family) es).get?_eq List.nodup_nil name

/-! ## Chains of files -/

/-- A manager applies files one after another, the first one as such and every later one as a reload
after the one before it, and none has anything rejected. -/
inductive LoadedInFull (l : Lifecycles σ₄ σ₆) (family : Family) (m : Manager σ₄ σ₆) :
    List FamilyConfig → Managed σ₄ σ₆ → Prop where
  | first {file : FamilyConfig} (accepted : (m.init l family file).1 = []) :
    LoadedInFull l family m [file] (first l family m file)
  | reload {files : List FamilyConfig} {s : Managed σ₄ σ₆} {file : FamilyConfig}
    (earlier : LoadedInFull l family m files s)
    (accepted : (s.manager.reload l family s.file file).1 = []) :
    LoadedInFull l family m (files ++ [file]) (step l family s (.reload file))

/-- The file that is compared with is the last one of the chain. -/
theorem LoadedInFull.file_eq (h : LoadedInFull l family m files s) :
    s.file = files.getLastD {} := by
  cases h with
  | first => rfl
  | reload => exact (List.getLastD_concat ..).symm

/-- What one more load leaves under a name of a chain whose records are in force. -/
theorem get?_step_reload {file : FamilyConfig} {name : String} (hfile : s.file = files.getLastD {})
    (hs : (s.manager.tracker family).configs.get? name =
      (s.file.find? name).bind fun _ => lastNamed (setRecords files) name)
    (h : (s.manager.reload l family s.file file).1 = []) :
    ((s.manager.reload l family s.file file).2.tracker family).configs.get? name =
      (file.find? name).bind fun _ => lastNamed (setRecords (files ++ [file])) name := by
  rw [get?_reload_of_accepted h, setRecords_append_singleton, lastNamed_append, ← hfile, hs]
  cases hn : file.find? name with
  | none =>
    have hunset : lastNamed (file.changedFrom s.file) name = none :=
      lastNamed_eq_none_iff.2 fun r hr =>
        FamilyConfig.find?_eq_none_iff.1 hn r (List.mem_filter.1 hr).1
    rw [hunset, Option.none_or]
    cases ho : s.file.find? name with
    | none => simp
    | some r => simp [FamilyConfig.mem_droppedBy, ho, hn]
  | some r =>
    have hkept : name ∉ s.file.droppedBy file := fun hm => by
      rw [(FamilyConfig.mem_droppedBy.1 hm).2] at hn
      cases hn
    rw [if_neg hkept, Option.bind_some]
    cases hset : lastNamed (file.changedFrom s.file) name with
    | some r' => rfl
    | none =>
      -- The name was listed before, so what is stored is what was set last.
      rw [FamilyConfig.find?_of_lastNamed_changedFrom hn hset, Option.bind_some]

/-- Under a name that the last file lists the last record that was set is in force, and under any
other name none is. -/
theorem LoadedInFull.get?_eq (h : LoadedInFull l family m files s)
    (hm : ∀ name, (m.tracker family).configs.get? name = none) (name : String) :
    (s.manager.tracker family).configs.get? name =
      (s.file.find? name).bind fun _ => lastNamed (setRecords files) name := by
  induction h with
  | @first file accepted =>
    rw [init_eq_reload] at accepted
    rw [Managed.first, init_eq_reload]
    -- The first file is a reload after the empty one.
    have hfile : ({ manager := m } : Managed σ₄ σ₆).file = ([] : List FamilyConfig).getLastD {} :=
      rfl
    exact get?_step_reload (s := { manager := m }) hfile (hm name) accepted
  | @reload files s file earlier accepted ih =>
    exact get?_step_reload earlier.file_eq ih accepted

end

/-- After a chain of files of which nothing was rejected, applied by a manager that has received
only events, the record in force under a name is what the last file finds there exactly if the name
is not shadowed. -/
theorem record_in_force_iff_not_shadowed {σ₄ σ₆ : Type} (l : Lifecycles σ₄ σ₆) (family : Family)
    (p₄ : σ₄) (p₆ : σ₆) (es : List Event) {files : List FamilyConfig} {s : Managed σ₄ σ₆}
    (h : LoadedInFull l family ((fresh p₄ p₆).notifyAll l es) files s) :
    s.file = files.getLastD {} ∧
    (∀ name, (s.manager.tracker family).configs.get? name =
      (s.file.find? name).bind fun _ => lastNamed (setRecords files) name) ∧
    (∀ name, (s.manager.tracker family).configs.get? name = s.file.find? name ↔
      ¬ Shadowed files name) ∧
    ((∀ file ∈ files, file.Uniform) →
      ∀ name, (s.manager.tracker family).configs.get? name = s.file.find? name) := by
  have hfile := h.file_eq
  have hget := h.get?_eq (get?_notifyAll_fresh l p₄ p₆ es family)
  have hiff : ∀ name, (s.manager.tracker family).configs.get? name = s.file.find? name ↔
      ¬ Shadowed files name := fun name => by
    rw [hget, Shadowed, ← hfile]
    cases s.file.find? name with
    | none => simp
    | some r => simp
  exact ⟨hfile, hget, hiff, fun huniform name =>
    (hiff name).2 (not_shadowed_of_uniform huniform name)⟩

/-- A record of an interface, and another one of the same interface. -/
def nearRecord : InterfaceConfig := { name := "eth0", enable := true, servers := ["10.0.0.1"] }

@[inherit_doc nearRecord]
def farRecord : InterfaceConfig := { name := "eth0", enable := true, servers := ["10.0.0.2"] }

/-- A file that lists both. -/
def doubledFile : FamilyConfig := { interfaces := [nearRecord, farRecord] }

/-- The file without the second one. -/
def singleFile : FamilyConfig := { interfaces := [nearRecord] }

/-- Both files are applied, one after the other, and nothing is rejected. -/
theorem exists_accepted_doubledFile :
    ∃ s, s.file = singleFile ∧
      LoadedInFull .dryRun .v4 (fresh ({} : Recorder) ({} : Recorder)) [doubledFile, singleFile]
        s := by
  have hfirst : LoadedInFull .dryRun .v4 (fresh ({} : Recorder) ({} : Recorder)) [doubledFile] _ :=
    .first (by decide +kernel)
  refine ⟨_, ?_, hfirst.reload (by decide +kernel)⟩
  rfl

/-- The second record stays in force when the file lists only the first one any more. -/
theorem farRecord_stays_in_force :
    Shadowed [doubledFile, singleFile] "eth0" ∧
    ∃ s, LoadedInFull .dryRun .v4 (fresh ({} : Recorder) ({} : Recorder))
        [doubledFile, singleFile] s ∧
      s.file.find? "eth0" = some nearRecord ∧
      (s.manager.tracker .v4).configs.get? "eth0" = some farRecord := by
  obtain ⟨s, hfile, hs⟩ := exists_accepted_doubledFile
  obtain ⟨-, hget, -⟩ := record_in_force_iff_not_shadowed .dryRun .v4 {} {} [] hs
  have hfind : s.file.find? "eth0" = some nearRecord := by rw [hfile]; decide
  refine ⟨⟨nearRecord, by decide, by decide⟩, s, hs, hfind, ?_⟩
  rw [hget, hfind]
  decide

/-- Files of which nothing is rejected do not always bring into force what they find. -/
theorem accepted_files_leave_shadowed_record :
    ¬ ∀ (family : Family) (es : List Event) (files : List FamilyConfig)
      (s : Managed Recorder Recorder),
      LoadedInFull .dryRun family ((fresh {} {}).notifyAll .dryRun es) files s →
      ∀ name, (s.manager.tracker family).configs.get? name = s.file.find? name := by
  intro h
  obtain ⟨s, hfile, hs⟩ := exists_accepted_doubledFile
  have hfound := h .v4 [] _ s hs "eth0"
  rw [hs.get?_eq (get?_notifyAll_fresh .dryRun {} {} [] .v4), hfile] at hfound
  exact absurd hfound (by decide)

end Manager

end DhcpRelay
