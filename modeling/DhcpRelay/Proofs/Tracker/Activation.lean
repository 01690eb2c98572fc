import DhcpRelay.Manager.Basic
import DhcpRelay.Proofs.Interface.PropertyTable

/-!
# The active set is a materialized view

A tracker patches its active set at one or two indices per operation. `Tracker.WellFormed` is the
invariant that makes this enough: both property tables are consistent, records stand under their
own names, and the active set answers at every index what `Tracker.configAt?` computes there from
scratch. Every operation keeps it (`Tracker.WellFormed.apply`), so after any run the active set is
the one a full rebuild would give.

The consistency of the main table is what a change of a configuration record needs: the record can
concern one index only, the one its name leads to.
-/

namespace DhcpRelay

open Interface (Property PropertyTable)

namespace Tracker

/-! ## Operations -/

/-- A change of a tracker. -/
inductive Operation where
  | setGlobal (c : GlobalConfig)
  | clearGlobal
  | setInterface (c : InterfaceConfig)
  | removeInterface (name : String)
  | interfaceCreated (p : Property)
  | interfaceDeleted (index : Int) (address : Option IpAddress)
  | interfaceStateChanged (index : Int) (up : Bool) (address : Option IpAddress)
  deriving DecidableEq, Repr

/-- Carries out an operation on the tracker of a family. -/
def apply (family : Family) (t : Tracker) : Operation → Tracker
  | .setGlobal c => t.setGlobal c
  | .clearGlobal => t.clearGlobal
  | .setInterface c => t.setInterface c
  | .removeInterface name => t.removeInterface name
  | .interfaceCreated p => t.interfaceCreated family p
  | .interfaceDeleted index address => t.interfaceDeleted family index address
  | .interfaceStateChanged index up address => t.interfaceStateChanged family index up address

section
variable {t u : Tracker}

/-! ## The record with which an index is active -/

/-- An index is active with a record exactly when it holds a property that is up, the record stands
under the property's name and is enabled, and the global record is enabled. -/
theorem configAt?_eq_some_iff {i : Int} {c : InterfaceConfig} :
    t.configAt? i = some c ↔
      ∃ p, t.props.get? i = some p ∧ p.up = true ∧ t.configs.get? p.name = some c ∧
        c.enable = true ∧ t.globalEnabled = true := by
  simp only [configAt?, Option.bind_eq_bind, Option.bind_eq_some_iff, Option.filter_eq_some_iff,
    Bool.and_eq_true]
  constructor
  · rintro ⟨p, ⟨hp, hup⟩, hc, he, hg⟩
    exact ⟨p, hp, hup, hc, he, hg⟩
  · rintro ⟨p, hp, hup, hc, he, hg⟩
    exact ⟨p, ⟨hp, hup⟩, hc, he, hg⟩

/-- An index without a property is not active. -/
theorem configAt?_eq_none {i : Int} (hp : t.props.get? i = none) : t.configAt? i = none := by
  simp [configAt?, hp]

/-- The record at an index depends only on the property of the index, the record of its name and
the global record. -/
theorem configAt?_congr {i : Int} (hp : u.props.get? i = t.props.get? i)
    (hc : ∀ p, t.props.get? i = some p → u.configs.get? p.name = t.configs.get? p.name)
    (hg : u.global = t.global) : u.configAt? i = t.configAt? i := by
  have hge : u.globalEnabled = t.globalEnabled := by rw [globalEnabled, hg, globalEnabled]
  refine Option.ext fun c => ?_
  simp only [configAt?_eq_some_iff, hp, hge]
  exact exists_congr fun p => and_congr_right fun h => by rw [hc p h]

/-- The global record is enabled when there is one and it says so. -/
theorem globalEnabled_iff : t.globalEnabled = true ↔ ∃ g, t.global = some g ∧ g.enable = true := by
  unfold globalEnabled
  cases t.global with
  | none => simp
  | some g => simp

/-! ## Reevaluation -/

@[simp] theorem props_reevaluate (i : Int) : (t.reevaluate i).props = t.props := by
  unfold reevaluate; split <;> rfl

@[simp] theorem linkLocal_reevaluate (i : Int) : (t.reevaluate i).linkLocal = t.linkLocal := by
  unfold reevaluate; split <;> rfl

@[simp] theorem global_reevaluate (i : Int) : (t.reevaluate i).global = t.global := by
  unfold reevaluate; split <;> rfl

@[simp] theorem configs_reevaluate (i : Int) : (t.reevaluate i).configs = t.configs := by
  unfold reevaluate; split <;> rfl

@[simp] theorem configAt?_reevaluate (i j : Int) :
    (t.reevaluate i).configAt? j = t.configAt? j :=
  configAt?_congr (by simp) (by simp) (by simp)

/-- A reevaluation brings one index up to date and leaves every other one alone. -/
theorem get?_active_reevaluate (t : Tracker) (i j : Int) :
    (t.reevaluate i).active.get? j = if j = i then t.configAt? i else t.active.get? j := by
  unfold reevaluate
  cases h : t.configAt? i with
  | none => simp [SortedTable.get?_erase_eq]
  | some c => simp [SortedTable.get?_insert_eq]

/-- Reevaluating a list of indices brings exactly these up to date. -/
theorem get?_active_foldl_reevaluate (is : List Int) (t : Tracker) (j : Int) :
    (is.foldl reevaluate t).active.get? j =
      if j ∈ is then t.configAt? j else t.active.get? j := by
  induction is generalizing t with
  | nil => simp
  | cons i is ih =>
    rw [List.foldl_cons, ih, get?_active_reevaluate, configAt?_reevaluate]
    by_cases hj : j ∈ is
    · simp [hj]
    · by_cases hi : j = i
      · subst hi; simp
      · simp [hj, hi]

/-- Reevaluating a list of indices changes nothing but the active set. -/
theorem foldl_reevaluate_eq (is : List Int) (t : Tracker) :
    ∃ active, is.foldl reevaluate t = { t with active } := by
  induction is generalizing t with
  | nil => exact ⟨t.active, rfl⟩
  | cons i is ih =>
    obtain ⟨active, h⟩ := ih (t.reevaluate i)
    refine ⟨active, ?_⟩
    rw [List.foldl_cons, h]
    unfold reevaluate
    split <;> rfl

/-- A rebuild changes nothing but the active set. -/
theorem rebuild_eq (t : Tracker) : ∃ active, t.rebuild = { t with active } := by
  obtain ⟨active, h⟩ := foldl_reevaluate_eq t.props.indices { t with active := ∅ }
  exact ⟨active, h⟩

@[simp] theorem props_rebuild : t.rebuild.props = t.props := by
  obtain ⟨_, h⟩ := rebuild_eq t; rw [h]

@[simp] theorem linkLocal_rebuild : t.rebuild.linkLocal = t.linkLocal := by
  obtain ⟨_, h⟩ := rebuild_eq t; rw [h]

@[simp] theorem global_rebuild : t.rebuild.global = t.global := by
  obtain ⟨_, h⟩ := rebuild_eq t; rw [h]

@[simp] theorem configs_rebuild : t.rebuild.configs = t.configs := by
  obtain ⟨_, h⟩ := rebuild_eq t; rw [h]

/-- A rebuild brings every index up to date: one that holds no property is not active. -/
theorem get?_active_rebuild (t : Tracker) (j : Int) :
    t.rebuild.active.get? j = t.configAt? j := by
  unfold rebuild
  rw [get?_active_foldl_reevaluate]
  split
  · exact configAt?_congr rfl (fun _ _ => rfl) rfl
  · next hj =>
    have hnone : t.props.get? j = none := SortedTable.get?_eq_none_iff.2 hj
    rw [configAt?_eq_none hnone]
    rfl

/-! ## The invariant -/

/-- What every operation keeps: both tables agree with themselves, records stand under their own
names, and the active set answers at every index what `configAt?` computes there. -/
structure WellFormed (t : Tracker) : Prop where
  props : t.props.Consistent
  linkLocal : t.linkLocal.Consistent
  name_eq : ∀ name c, t.configs.get? name = some c → c.name = name
  active_eq : ∀ i, t.active.get? i = t.configAt? i

/-- The tracker before anything happened is well-formed. -/
theorem WellFormed.empty : WellFormed {} where
  props := .empty
  linkLocal := .empty
  name_eq _ _ h := by simp at h
  active_eq i := by rw [configAt?_eq_none rfl]; rfl

/-- A tracker whose active set is stale at one index at most is well-formed once that index is
reevaluated. -/
theorem WellFormed.of_stale {i : Int} (hp : t.props.Consistent) (hl : t.linkLocal.Consistent)
    (hn : ∀ name c, t.configs.get? name = some c → c.name = name)
    (hs : ∀ j, j ≠ i → t.active.get? j = t.configAt? j) : (t.reevaluate i).WellFormed where
  props := by rwa [props_reevaluate]
  linkLocal := by rwa [linkLocal_reevaluate]
  name_eq name c h := hn name c (by rwa [configs_reevaluate] at h)
  active_eq j := by
    rw [get?_active_reevaluate, configAt?_reevaluate]
    split
    · next hj => rw [hj]
    · next hj => exact hs j hj

/-- A tracker whose active set is rebuilt is well-formed. -/
theorem WellFormed.of_rebuild (hp : t.props.Consistent) (hl : t.linkLocal.Consistent)
    (hn : ∀ name c, t.configs.get? name = some c → c.name = name) : t.rebuild.WellFormed where
  props := by rwa [props_rebuild]
  linkLocal := by rwa [linkLocal_rebuild]
  name_eq name c h := hn name c (by rwa [configs_rebuild] at h)
  active_eq j := by
    rw [get?_active_rebuild]
    exact (configAt?_congr (by simp) (by simp) (by simp)).symm

/-- Reevaluating an index of a well-formed tracker keeps it well-formed. -/
theorem WellFormed.reevaluate (h : t.WellFormed) (i : Int) : (t.reevaluate i).WellFormed :=
  .of_stale h.props h.linkLocal h.name_eq fun j _ => h.active_eq j

/-! ## Configuration -/

/-- Storing a global record keeps a tracker well-formed. -/
theorem WellFormed.setGlobal (h : t.WellFormed) (c : GlobalConfig) : (t.setGlobal c).WellFormed :=
  .of_rebuild h.props h.linkLocal h.name_eq

/-- Removing the global record keeps a tracker well-formed. -/
theorem WellFormed.clearGlobal (h : t.WellFormed) : t.clearGlobal.WellFormed where
  props := h.props
  linkLocal := h.linkLocal
  name_eq := h.name_eq
  active_eq i := by
    have hnone : t.clearGlobal.configAt? i = none := by
      rw [Option.eq_none_iff_forall_ne_some]
      intro c hc
      obtain ⟨_, _, _, _, _, hg⟩ := configAt?_eq_some_iff.1 hc
      exact absurd hg (by simp [globalEnabled, Tracker.clearGlobal])
    rw [hnone]
    rfl

/-- Changing the record of one name and reevaluating the index of that name keeps a tracker
well-formed. -/
theorem WellFormed.reevaluateName (h : t.WellFormed) {name : String}
    {configs : SortedTable String InterfaceConfig}
    (hn : ∀ n c, configs.get? n = some c → c.name = n)
    (hother : ∀ n, n ≠ name → configs.get? n = t.configs.get? n) :
    ({ t with configs }.reevaluateName name).WellFormed := by
  -- a property of another name has the record it had
  have hsame : ∀ j, (∀ p, t.props.get? j = some p → p.name ≠ name) →
      ({ t with configs } : Tracker).configAt? j = t.configAt? j := fun j hj =>
    configAt?_congr rfl (fun p hp => hother p.name (hj p hp)) rfl
  unfold Tracker.reevaluateName
  cases hi : t.props.index? name with
  | none =>
    have hall := h.props.index?_eq_none_iff.1 hi
    exact ⟨h.props, h.linkLocal, hn, fun j => by rw [hsame j (hall j)]; exact h.active_eq j⟩
  | some i =>
    refine .of_stale h.props h.linkLocal hn fun j hj => ?_
    rw [hsame j]
    · exact h.active_eq j
    · intro p hp hpn
      have := h.props.index?_name hp
      rw [hpn, hi] at this
      exact hj (Option.some.inj this).symm

/-- Storing the record of an interface keeps a tracker well-formed. -/
theorem WellFormed.setInterface (h : t.WellFormed) (c : InterfaceConfig) :
    (t.setInterface c).WellFormed := by
  refine h.reevaluateName (fun n c' hc' => ?_) fun n hn => ?_
  · rw [SortedTable.get?_insert_eq] at hc'
    split at hc'
    · next hn => cases hc'; exact hn.symm
    · exact h.name_eq n c' hc'
  · exact SortedTable.get?_insert_of_ne _ _ hn

/-- Removing the record of an interface keeps a tracker well-formed. -/
theorem WellFormed.removeInterface (h : t.WellFormed) (name : String) :
    (t.removeInterface name).WellFormed := by
  refine h.reevaluateName (fun n c hc => ?_) fun n hn => ?_
  · rw [SortedTable.get?_erase_eq] at hc
    split at hc
    · cases hc
    · exact h.name_eq n c hc
  · rw [SortedTable.get?_erase_eq, if_neg hn]

/-! ## Interfaces -/

/-- Reevaluates the index that lost its property, if one did. -/
def reevaluateEvicted (t : Tracker) : Option Int → Tracker
  | some old => t.reevaluate old
  | none => t

/-- An address that appeared concerns the table of its kind, the index that lost its name and the
index that got it. -/
theorem interfaceCreated_eq (t : Tracker) (family : Family) (p : Property) :
    t.interfaceCreated family p =
      if reach family p.address = .linkLocal then
        (({ t with linkLocal := (t.linkLocal.upsert p).2 }.reevaluateEvicted
          (t.linkLocal.upsert p).1).reevaluate p.index)
      else
        (({ t with props := (t.props.upsert p).2 }.reevaluateEvicted
          (t.props.upsert p).1).reevaluate p.index) := by
  unfold interfaceCreated reevaluateEvicted
  cases reach family p.address <;> rfl

/-- An address that appeared keeps a tracker well-formed. -/
theorem WellFormed.interfaceCreated (h : t.WellFormed) (family : Family) (p : Property) :
    (t.interfaceCreated family p).WellFormed := by
  rw [interfaceCreated_eq]
  split
  · -- the active set does not depend on the link-local table
    have hl : WellFormed { t with linkLocal := (t.linkLocal.upsert p).2 } :=
      ⟨h.props, h.linkLocal.upsert p, h.name_eq, h.active_eq⟩
    unfold reevaluateEvicted
    split
    · exact (hl.reevaluate _).reevaluate p.index
    · exact hl.reevaluate p.index
  · have hsame : ∀ j, j ≠ p.index → t.props.index? p.name ≠ some j →
        ({ t with props := (t.props.upsert p).2 } : Tracker).configAt? j = t.configAt? j := by
      intro j hj hne
      refine configAt?_congr ?_ (fun _ _ => rfl) rfl
      simp [PropertyTable.get?_upsert, hj, hne]
    unfold reevaluateEvicted
    rw [PropertyTable.upsert_fst]
    split
    · next old hold =>
      have hev : t.props.index? p.name = some old := (Option.filter_eq_some_iff.1 hold).1
      refine .of_stale (by simpa using h.props.upsert p) (by simpa using h.linkLocal)
        (by simpa using h.name_eq) fun j hj => ?_
      rw [get?_active_reevaluate, configAt?_reevaluate]
      split
      · next hjo => rw [hjo]
      · next hjo =>
        rw [hsame j hj (by simpa [hev] using fun he => hjo he.symm)]
        exact h.active_eq j
    · next hnone =>
      refine .of_stale (h.props.upsert p) h.linkLocal h.name_eq fun j hj => ?_
      rw [hsame j hj]
      · exact h.active_eq j
      · intro hi
        rw [hi] at hnone
        simp [hj] at hnone

/-- A change of the tables at one index, followed by its reevaluation, keeps a tracker
well-formed. -/
theorem WellFormed.onTables (h : t.WellFormed) (r : Reach) {f : PropertyTable → PropertyTable}
    {i : Int} (hf : ∀ table : PropertyTable, table.Consistent → (f table).Consistent)
    (hother : ∀ (table : PropertyTable) (j : Int), j ≠ i → (f table).get? j = table.get? j) :
    ((t.onTables r f).reevaluate i).WellFormed := by
  have hstale : ∀ j, j ≠ i → (t.onTables r f).active.get? j = (t.onTables r f).configAt? j := by
    intro j hj
    have hconf : (t.onTables r f).configAt? j = t.configAt? j := by
      cases r with
      | main | both => exact configAt?_congr (hother t.props j hj) (fun _ _ => rfl) rfl
      | linkLocal => rfl
    rw [hconf]
    cases r <;> exact h.active_eq j
  cases r with
  | main => exact .of_stale (hf _ h.props) h.linkLocal h.name_eq hstale
  | linkLocal => exact .of_stale h.props (hf _ h.linkLocal) h.name_eq hstale
  | both => exact .of_stale (hf _ h.props) (hf _ h.linkLocal) h.name_eq hstale

/-- An address that disappeared keeps a tracker well-formed. -/
theorem WellFormed.interfaceDeleted (h : t.WellFormed) (family : Family) (index : Int)
    (address : Option IpAddress) : (t.interfaceDeleted family index address).WellFormed :=
  h.onTables _ (fun _ ht => ht.remove index) fun table j hj => by
    rw [PropertyTable.get?_remove, if_neg hj]

/-- An interface that went up or down keeps a tracker well-formed. -/
theorem WellFormed.interfaceStateChanged (h : t.WellFormed) (family : Family) (index : Int)
    (up : Bool) (address : Option IpAddress) :
    (t.interfaceStateChanged family index up address).WellFormed :=
  h.onTables _ (fun _ ht => ht.setUp index up) fun table j hj => by
    rw [PropertyTable.get?_setUp, if_neg hj]

/-- Every operation keeps a tracker well-formed. -/
theorem WellFormed.apply (h : t.WellFormed) (family : Family) (o : Operation) :
    (t.apply family o).WellFormed := by
  cases o with
  | setGlobal c => exact h.setGlobal c
  | clearGlobal => exact h.clearGlobal
  | setInterface c => exact h.setInterface c
  | removeInterface name => exact h.removeInterface name
  | interfaceCreated p => exact h.interfaceCreated family p
  | interfaceDeleted index address => exact h.interfaceDeleted family index address
  | interfaceStateChanged index up address => exact h.interfaceStateChanged family index up address

/-- Operations keep a tracker well-formed. -/
theorem WellFormed.applyAll (h : t.WellFormed) (family : Family) (ops : List Operation) :
    (ops.foldl (Tracker.apply family) t).WellFormed := by
  induction ops generalizing t with
  | nil => exact h
  | cons o ops ih => exact ih (h.apply family o)

/-- Operations lead from the empty tracker to this one. -/
def Reachable (family : Family) (t : Tracker) : Prop :=
  ∃ ops : List Operation, t = ops.foldl (Tracker.apply family) {}

theorem Reachable.wellFormed {family : Family} (h : t.Reachable family) : t.WellFormed := by
  obtain ⟨ops, rfl⟩ := h
  exact WellFormed.empty.applyAll family ops

/-! ## What a well-formed tracker answers -/

/-- The active set of a well-formed tracker is the one a rebuild gives. -/
theorem WellFormed.rebuild_eq_self (h : t.WellFormed) : t.rebuild = t := by
  obtain ⟨active, he⟩ := rebuild_eq t
  have hactive : active = t.active := by
    refine SortedTable.ext_get? fun i => ?_
    have := get?_active_rebuild t i
    rw [he] at this
    rw [this, h.active_eq i]
  rw [he, hactive]

/-- An active index of a well-formed tracker holds a property. -/
theorem WellFormed.exists_property (h : t.WellFormed) {i : Int} (hi : i ∈ t.activeIndices) :
    ∃ p, t.props.get? i = some p := by
  obtain ⟨c, hc⟩ := SortedTable.mem_keys_iff.1 hi
  obtain ⟨p, hp, -⟩ := configAt?_eq_some_iff.1 ((h.active_eq i).symm.trans hc)
  exact ⟨p, hp⟩

/-- A well-formed tracker has an active interface exactly at its active indices. -/
theorem WellFormed.isSome_activeAt?_iff (h : t.WellFormed) (i : Int) :
    (t.activeAt? i).isSome = true ↔ i ∈ t.activeIndices := by
  unfold activeIndices
  rw [SortedTable.mem_keys_iff, activeAt?]
  cases hc : t.active.get? i with
  | none => simp
  | some c =>
    obtain ⟨p, hp, -⟩ := configAt?_eq_some_iff.1 ((h.active_eq i).symm.trans hc)
    simp [hp]

/-- The property of an active interface is that of its index, and its record is the stored one of
the property's name. -/
theorem WellFormed.stored_of_activeAt? (h : t.WellFormed) {i : Int} {a : ActiveInterface}
    (ha : t.activeAt? i = some a) :
    t.props.get? i = some a.property ∧ t.configs.get? a.property.name = some a.config := by
  simp only [activeAt?, Option.bind_eq_bind, Option.bind_eq_some_iff, Option.pure_def,
    Option.some.injEq] at ha
  obtain ⟨c, hc, q, hq, rfl⟩ := ha
  obtain ⟨p, hp, -, hcp, -⟩ := configAt?_eq_some_iff.1 ((h.active_eq i).symm.trans hc)
  rw [hq] at hp
  obtain rfl := Option.some.inj hp
  exact ⟨hq, hcp⟩

/-- The property of an active interface stands under its index, and its record has the property's
name. -/
theorem WellFormed.name_eq_of_activeAt? (h : t.WellFormed) {i : Int} {a : ActiveInterface}
    (ha : t.activeAt? i = some a) : a.config.name = a.property.name ∧ a.property.index = i := by
  obtain ⟨hproperty, hconfig⟩ := h.stored_of_activeAt? ha
  exact ⟨h.name_eq _ _ hconfig, h.props.index_eq i _ hproperty⟩

/-- An interface that is active by its name has an active index. -/
theorem WellFormed.mem_activeIndices_of_activeNamed? (h : t.WellFormed) {name : String}
    {a : ActiveInterface} (ha : t.activeNamed? name = some a) :
    a.property.index ∈ t.activeIndices := by
  obtain ⟨i, -, ha⟩ := Option.bind_eq_some_iff.1 ha
  rw [(h.name_eq_of_activeAt? ha).2, ← h.isSome_activeAt?_iff, ha]
  rfl

end

end Tracker

/-! ## Runs of both trackers -/

namespace Manager

section
variable {σ₄ σ₆ : Type}

/-- Carries out operations on the trackers of both families, one after another, behind the backs of
the processors. -/
def changeTrackers (m : Manager σ₄ σ₆) (ops : List (Family × Tracker.Operation)) :
    Manager σ₄ σ₆ :=
  ops.foldl (fun m o => m.onTracker o.1 fun t => t.apply o.1 o.2) m

/-- A change of the tracker of one family leaves the other one alone. -/
theorem tracker_onTracker (m : Manager σ₄ σ₆) (family other : Family) (f : Tracker → Tracker) :
    (m.onTracker family f).tracker other =
      if other = family then f (m.tracker other) else m.tracker other := by
  cases family <;> cases other <;> rfl

/-- Operations keep both trackers well-formed. -/
theorem wellFormed_changeTrackers {m : Manager σ₄ σ₆} (h : ∀ family, (m.tracker family).WellFormed)
    (ops : List (Family × Tracker.Operation)) (family : Family) :
    ((m.changeTrackers ops).tracker family).WellFormed := by
  induction ops generalizing m with
  | nil => exact h family
  | cons o ops ih =>
    refine ih fun other => ?_
    rw [tracker_onTracker]
    split
    · next ho => exact ho ▸ (h other).apply other o.2
    · exact h other

/-- Before anything happened both trackers are well-formed. -/
theorem wellFormed_fresh (p₄ : σ₄) (p₆ : σ₆) (family : Family) :
    ((fresh p₄ p₆).tracker family).WellFormed := by
  cases family <;> exact .empty

/-- After any operations on the trackers, in any order, an index of a family is active with a
record exactly when the index holds a property that is up, that record is the one stored under the
property's name, it is enabled, and the global record is there and enabled. So the patched set is
the rebuilt one, and an active interface is there exactly at the active indices, with the record of
its own name. -/
theorem active_iff_conjunction (p₄ : σ₄) (p₆ : σ₆) (ops : List (Family × Tracker.Operation))
    (family : Family) :
    let t := ((fresh p₄ p₆).changeTrackers ops).tracker family
    (∀ i c, t.active.get? i = some c ↔
      ∃ p g, t.props.get? i = some p ∧ p.up = true ∧ t.configs.get? p.name = some c ∧
        c.enable = true ∧ t.global = some g ∧ g.enable = true) ∧
    t.rebuild = t ∧
    (∀ i, (t.activeAt? i).isSome = true ↔ i ∈ t.activeIndices) ∧
    ∀ i a, t.activeAt? i = some a → a.config.name = a.property.name ∧ a.property.index = i := by
  intro t
  have h : t.WellFormed := wellFormed_changeTrackers (wellFormed_fresh p₄ p₆) ops family
  refine ⟨fun i c => ?_, h.rebuild_eq_self, h.isSome_activeAt?_iff, fun i a =>
    h.name_eq_of_activeAt?⟩
  rw [h.active_eq, Tracker.configAt?_eq_some_iff]
  simp only [Tracker.globalEnabled_iff]
  constructor
  · rintro ⟨p, hp, hup, hc, he, g, hg, hge⟩
    exact ⟨p, g, hp, hup, hc, he, hg, hge⟩
  · rintro ⟨p, g, hp, hup, hc, he, hg, hge⟩
    exact ⟨p, hp, hup, hc, he, g, hg, hge⟩

end

end Manager

end DhcpRelay
