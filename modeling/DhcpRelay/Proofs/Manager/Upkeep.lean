import DhcpRelay.Proofs.History
import DhcpRelay.Proofs.Manager.Reload

/-!
# Files that are read again and again

Whenever the file of a family is read again, it is compared with the file that was read before it,
not with what the tracker holds. A record that was rejected once is therefore passed over by every
later load whose file lists it unchanged: it is neither stored nor answered as rejected, although
what made it unacceptable may be gone. Such a record has been overlooked (`Managed.Overlooked`).

Nothing else stands between a file and its being in force. Along any chain of files and events the
stored records are those of the last file that were not overlooked, and the stored global record is
that of the last file unless it is one that is always rejected (`Managed.Upheld`).
-/

namespace DhcpRelay

open Interface (Event)

namespace Manager

/-- What happens to a family after its first file was applied. -/
inductive Upkeep where
  | notify (e : Event)
  /-- The file is read again. -/
  | reload (file : FamilyConfig)

/-- The file of a family that was read last, and the manager. -/
structure Managed (σ₄ σ₆ : Type) where
  file : FamilyConfig := {}
  manager : Manager σ₄ σ₆

namespace Managed

section
variable {σ₄ σ₆ : Type} (l : Lifecycles σ₄ σ₆) (family : Family)

/-- Takes an event or applies a file. The file takes the place of the one before it, whatever was
rejected of it. -/
def step (s : Managed σ₄ σ₆) : Upkeep → Managed σ₄ σ₆
  | .notify e => { s with manager := s.manager.notify l e }
  | .reload file => ⟨file, (s.manager.reload l family s.file file).2⟩

/-- The state once the first file has been applied. -/
def first (m : Manager σ₄ σ₆) (file : FamilyConfig) : Managed σ₄ σ₆ :=
  ⟨file, (m.init l family file).2⟩

/-- The states before the first file, after it and after each step from then on. -/
def history (m : Manager σ₄ σ₆) (file : FamilyConfig) (us : List Upkeep) : List (Managed σ₄ σ₆) :=
  { manager := m } :: us.scanl (step l family) (first l family m file)

/-- A load rejected a record that the file before it did not list and that was not stored, and every
file since then has listed it. -/
def Overlooked (states : List (Managed σ₄ σ₆)) (r : InterfaceConfig) : Prop :=
  History.Lasts
    (fun s => r ∉ s.file.interfaces ∧
      (s.manager.tracker family).configs.get? r.name ≠ some r ∧
      (s.manager.tracker family).rejection? family r ≠ none)
    (fun s => r ∈ s.file.interfaces) states

end

section
variable {σ₄ σ₆ : Type} {l : Lifecycles σ₄ σ₆} {family : Family} {before : List (Managed σ₄ σ₆)}
  {s s' : Managed σ₄ σ₆} {r : InterfaceConfig}

/-- After a step a record has been overlooked if the file lists it and it had been overlooked
before, or if the step was a load that overlooked it. -/
theorem overlooked_append : Overlooked family (before ++ [s] ++ [s']) r ↔
    r ∈ s'.file.interfaces ∧ (Overlooked family (before ++ [s]) r ∨
      r ∉ s.file.interfaces ∧ (s.manager.tracker family).configs.get? r.name ≠ some r ∧
        (s.manager.tracker family).rejection? family r ≠ none) :=
  History.lasts_append

/-- If the file has listed a record already, a step in which it stays listed overlooks nothing. -/
theorem overlooked_append_of_mem (h : r ∈ s.file.interfaces) (h' : r ∈ s'.file.interfaces) :
    Overlooked family (before ++ [s] ++ [s']) r ↔ Overlooked family (before ++ [s]) r := by
  rw [overlooked_append]
  constructor
  · rintro ⟨-, hover | ⟨hnot, -⟩⟩
    · exact hover
    · exact absurd h hnot
  · exact fun hover => ⟨h', .inl hover⟩

/-- What the tracker holds of the file that was read last. -/
structure Upheld (family : Family) (before : List (Managed σ₄ σ₆)) (s : Managed σ₄ σ₆) : Prop where
  distinct : s.file.Distinct
  global_accepted : (s.manager.tracker family).global.bind GlobalConfig.rejection? = none
  global_eq : s.file.global.bind GlobalConfig.rejection? = none →
    (s.manager.tracker family).global = s.file.global
  get?_unlisted : ∀ name, s.file.find? name = none →
    (s.manager.tracker family).configs.get? name = none
  get?_listed_iff : ∀ r ∈ s.file.interfaces,
    (s.manager.tracker family).configs.get? r.name = some r ↔ ¬ Overlooked family (before ++ [s]) r

/-- The file is in force exactly if its global record is not one that is rejected and none of its
records was overlooked. -/
theorem Upheld.inForce_iff (h : Upheld family before s) :
    (s.manager.tracker family).InForce s.file ↔
      s.file.global.bind GlobalConfig.rejection? = none ∧
      ∀ r ∈ s.file.interfaces, ¬ Overlooked family (before ++ [s]) r := by
  constructor
  · intro hin
    refine ⟨hin.global_eq ▸ h.global_accepted, fun r hr => ?_⟩
    rw [← h.get?_listed_iff r hr, hin.get?_eq_some_iff]
    exact ⟨hr, rfl⟩
  · rintro ⟨hglobal, hrecords⟩
    refine .of_get?_eq h.distinct (h.global_eq hglobal) fun name => ?_
    cases hn : s.file.find? name with
    | none => exact h.get?_unlisted name hn
    | some r =>
      obtain ⟨hr, rfl⟩ := h.distinct.find?_eq_some_iff.1 hn
      exact (h.get?_listed_iff r hr).2 (hrecords r hr)

/-- Where nothing is configured, the empty file is upheld. -/
theorem Upheld.empty {m : Manager σ₄ σ₆} (h : (m.tracker family).InForce {}) :
    Upheld family [] { manager := m } where
  distinct := List.nodup_nil
  global_accepted := by rw [h.global_eq]; rfl
  global_eq _ := h.global_eq
  get?_unlisted name hn := (h.get?_eq List.nodup_nil name).trans hn
  get?_listed_iff r hr := absurd hr List.not_mem_nil

/-- An event changes neither the file nor the records, and nothing is overlooked by it. -/
theorem Upheld.notify (h : Upheld family before s) (l : Lifecycles σ₄ σ₆) (e : Event) :
    Upheld family (before ++ [s]) { s with manager := s.manager.notify l e } where
  distinct := h.distinct
  global_accepted := by rw [global_notify]; exact h.global_accepted
  global_eq hg := by rw [global_notify]; exact h.global_eq hg
  get?_unlisted name hn := by rw [configs_notify]; exact h.get?_unlisted name hn
  get?_listed_iff r hr := by
    have hlisted : r ∈ s.file.interfaces := hr
    rw [configs_notify, h.get?_listed_iff r hlisted, overlooked_append_of_mem hlisted hr]

/-- A load overlooks what it rejects of the records that it looks at, unless that happens to be
stored, and passes over what has been overlooked before. -/
theorem Upheld.reload (h : Upheld family before s) (l : Lifecycles σ₄ σ₆) {file : FamilyConfig}
    (hfile : file.Distinct) :
    Upheld family (before ++ [s]) ⟨file, (s.manager.reload l family s.file file).2⟩ := by
  have hload := loaded_reload l s.manager family h.distinct hfile
  refine ⟨hfile, ?_, fun hg => ?_, fun name hn => ?_, fun r hr => ?_⟩
  · rw [hload.global_eq]
    by_cases hkept : file.global = s.file.global ∨
        (file.global.bind GlobalConfig.rejection?).isSome
    · rw [if_pos hkept]
      exact h.global_accepted
    · rw [if_neg hkept]
      simpa using (not_or.1 hkept).2
  · rw [hload.global_eq]
    by_cases hsame : file.global = s.file.global
    · rw [if_pos (.inl hsame), h.global_eq (hsame ▸ hg), hsame]
    · rw [if_neg (by simp [hsame, hg])]
  · rw [hload.get?_unlisted name hn]
    cases ho : s.file.find? name with
    | none => exact h.get?_unlisted name ho
    | some r => rfl
  · show (Tracker.configs _).get? _ = _ ↔ _
    rw [hload.get?_listed r hr]
    by_cases ho : r ∈ s.file.interfaces
    · rw [if_neg fun hc => hc.1 ho, h.get?_listed_iff r ho, overlooked_append_of_mem ho hr]
    · have hnever : ¬ Overlooked family (before ++ [s]) r := fun hover => ho hover.holds_last
      rw [overlooked_append]
      by_cases haccepted : (s.manager.tracker family).rejection? family r = none
      · rw [if_pos ⟨ho, haccepted⟩]
        refine iff_of_true rfl ?_
        rintro ⟨-, hover | ⟨-, -, hrejected⟩⟩
        · exact hnever hover
        · exact hrejected haccepted
      · rw [if_neg fun hc => haccepted hc.2]
        constructor
        · rintro hstored ⟨-, hover | ⟨-, hne, -⟩⟩
          · exact hnever hover
          · exact hne hstored
        · exact fun hover => Classical.byContradiction fun hne =>
            hover ⟨hr, .inr ⟨ho, hne, haccepted⟩⟩

/-- The file is upheld along any chain of files. -/
theorem Upheld.steps (h : Upheld family before s) (l : Lifecycles σ₄ σ₆) {us : List Upkeep}
    (hus : ∀ file, .reload file ∈ us → file.Distinct) :
    ∃ earlier, before ++ us.scanl (step l family) s = earlier ++ [us.foldl (step l family) s] ∧
      Upheld family earlier (us.foldl (step l family) s) := by
  induction us generalizing before s with
  | nil => exact ⟨before, by rw [List.scanl_nil]; rfl, h⟩
  | cons u us ih =>
    have hstep : Upheld family (before ++ [s]) (step l family s u) := by
      cases u with
      | notify e => exact h.notify l e
      | reload file => exact h.reload l (hus file List.mem_cons_self)
    obtain ⟨earlier, he, hup⟩ := ih hstep fun file hf => hus file (List.mem_cons_of_mem _ hf)
    refine ⟨earlier, ?_, hup⟩
    rw [List.scanl_cons, List.append_cons]
    exact he

end

end Managed

open Managed

/-- After any chain of files and events, a reload that answers no rejection puts its file in force
exactly if the file's global record is not one that is rejected and no load before it overlooked one
of its records. -/
theorem reload_inForce_iff_none_overlooked {σ₄ σ₆ : Type} (l : Lifecycles σ₄ σ₆) (family : Family)
    {m : Manager σ₄ σ₆} (hm : (m.tracker family).InForce {}) {c₀ c : FamilyConfig}
    {us : List Upkeep} (hc₀ : c₀.Distinct) (hus : ∀ file, .reload file ∈ us → file.Distinct)
    (hc : c.Distinct) :
    let s := us.foldl (step l family) (first l family m c₀)
    let loaded := s.manager.reload l family s.file c
    loaded.1 = [] →
      ((loaded.2.tracker family).InForce c ↔ c.global.bind GlobalConfig.rejection? = none ∧
        ∀ r ∈ c.interfaces, ¬ Overlooked family (history l family m c₀ us) r) := by
  intro s loaded hloaded
  have hfirst : Upheld family [{ manager := m }] (first l family m c₀) := by
    rw [first, init_eq_reload]
    exact (Upheld.empty hm).reload l hc₀
  obtain ⟨earlier, hhistory, hup⟩ := hfirst.steps l hus
  have hin := (hup.reload l hc).inForce_iff
  have hnone := (loaded_reload l s.manager family hup.distinct hc).rejected_eq
  rw [show (s.manager.reload l family s.file c).1 = [] from hloaded] at hnone
  have hrecords := List.filterMap_eq_nil_iff.1 (List.append_eq_nil_iff.1 hnone.symm).2
  refine hin.trans (and_congr_right fun _ => forall₂_congr fun r hr => not_congr ?_)
  -- With no rejection answered, the last load has overlooked nothing itself.
  rw [overlooked_append, ← hhistory]
  constructor
  · rintro ⟨-, hover | ⟨hnot, -, hrejected⟩⟩
    · exact hover
    · exact absurd (by simpa [hnot] using hrecords r hr) hrejected
  · exact fun hover => ⟨hr, .inl hover⟩

/-- An interface that sends on upstream through another one. -/
def upstreamRecord : InterfaceConfig := { name := "eth0", enable := true, upstreams := ["eth5"] }

/-- A file of that interface alone. -/
def upstreamFile : FamilyConfig := { interfaces := [upstreamRecord] }

/-- The upstream interface gets its link-local address. -/
def upstreamUp : Upkeep :=
  .notify { family := .v6, index := 5, name := "eth5", address := some "fe80::5/64",
            change := .created true }

/-- If the upstream interface gets its address only after the file was applied, the record has been
overlooked when the file is read again, although nothing is wrong with it any more. -/
theorem overlooked_upstreamRecord :
    let m : Manager Recorder Recorder := fresh {} {}
    let s := [upstreamUp].foldl (step .dryRun .v6) (first .dryRun .v6 m upstreamFile)
    (s.manager.reload .dryRun .v6 s.file upstreamFile).1 = [] ∧
      (s.manager.tracker .v6).rejection? .v6 upstreamRecord = none ∧
      Overlooked .v6 (history .dryRun .v6 m upstreamFile [upstreamUp]) upstreamRecord := by
  have hfile : upstreamFile.Distinct := by decide
  refine ⟨by decide +kernel, by decide +kernel, Classical.byContradiction fun hnot => ?_⟩
  have h := reload_inForce_iff_none_overlooked .dryRun .v6
    (inForce_fresh ({} : Recorder) ({} : Recorder) .v6) hfile
    (show ∀ file, .reload file ∈ [upstreamUp] → file.Distinct by simp [upstreamUp]) hfile
    (by decide +kernel)
  have hin := h.2 ⟨rfl, fun r hr => List.mem_singleton.1 hr ▸ hnot⟩
  have hstored := (hin.get?_eq_some_iff "eth0" upstreamRecord).2 (by decide)
  exact absurd hstored (by decide +kernel)

/-- A reload that answers no rejection does not always put its file in force. -/
theorem reload_leaves_file_not_in_force :
    ¬ ∀ (family : Family) (before : List Event) (c₀ c : FamilyConfig) (us : List Upkeep),
      c₀.Distinct → (∀ file, .reload file ∈ us → file.Distinct) → c.Distinct →
      let m : Manager Recorder Recorder := (fresh {} {}).notifyAll .dryRun before
      let s := us.foldl (step .dryRun family) (first .dryRun family m c₀)
      let loaded := s.manager.reload .dryRun family s.file c
      loaded.1 = [] → (loaded.2.tracker family).InForce c := by
  intro h
  have hfile : upstreamFile.Distinct := by decide
  have hin := h .v6 [] upstreamFile upstreamFile [upstreamUp] hfile (by simp [upstreamUp]) hfile
    (by decide +kernel)
  have hstored := (hin.get?_eq_some_iff "eth0" upstreamRecord).2 (by decide)
  exact absurd hstored (by decide +kernel)

end Manager

end DhcpRelay
