import DhcpRelay.Proofs.Manager.Loading

/-!
# Which interfaces are served

An interface is served while it has a property that is up, the record of its name is enabled, and
the global record is enabled (`Tracker.Serves`). These are three needs (`Tracker.Need`), and each is
met by operations of its own kind only: a need that is not met stays so until an operation of that
kind (`Tracker.Need.met_of_met_apply`), whatever else the manager does (`Manager.not_met_apply`).

`Manager.Withdraws` lists the ways in which an operation takes a need away: a record is disabled or
deleted, by itself or as part of a load, an interface goes down, loses its address, or loses its
name to another index.
-/

namespace DhcpRelay

open Interface (Event Property PropertyTable)

namespace Tracker

/-! ## Service -/

/-- The interface at an index is served: it has a property in the main table that is up, and the
record of its name and the global record are enabled. -/
def Serves (t : Tracker) (index : Int) : Prop :=
  ∃ p c g, t.props.get? index = some p ∧ p.up = true ∧ t.configs.get? p.name = some c ∧
    c.enable = true ∧ t.global = some g ∧ g.enable = true

section
variable {t : Tracker} {i : Int} {a : ActiveInterface} {name : String}

/-- An active interface is served. -/
theorem WellFormed.serves_of_activeAt? (h : t.WellFormed) (ha : t.activeAt? i = some a) :
    t.Serves i := by
  simp only [activeAt?, Option.bind_eq_bind, Option.bind_eq_some_iff] at ha
  obtain ⟨c, hc, -⟩ := ha
  obtain ⟨p, hp, hup, hcp, he, hg⟩ := configAt?_eq_some_iff.1 ((h.active_eq i).symm.trans hc)
  obtain ⟨g, hglobal, hge⟩ := globalEnabled_iff.1 hg
  exact ⟨p, c, g, hp, hup, hcp, he, hglobal, hge⟩

/-- An interface that is active by its name is served at the index to which the name leads. -/
theorem WellFormed.serves_of_activeNamed? (h : t.WellFormed) (ha : t.activeNamed? name = some a) :
    t.props.index? name = some a.property.index ∧ t.Serves a.property.index := by
  obtain ⟨i, hi, ha⟩ := Option.bind_eq_some_iff.1 ha
  obtain rfl := (h.name_eq_of_activeAt? ha).2
  exact ⟨hi, h.serves_of_activeAt? ha⟩

end

/-! ## Needs -/

/-- What an interface needs to be served. -/
inductive Need where
  | global
  | record (name : String)
  | link (index : Int)
  deriving DecidableEq, Repr

namespace Need

/-- A need is met: the global record is enabled, the record of the name is, or the index has a
property that is up. -/
def Met (t : Tracker) : Need → Prop
  | global => ∃ g, t.global = some g ∧ g.enable = true
  | record name => ∃ c, t.configs.get? name = some c ∧ c.enable = true
  | link index => ∃ p, t.props.get? index = some p ∧ p.up = true

/-- A need is one of the interface at an index. -/
def Concerns (t : Tracker) (index : Int) : Need → Prop
  | global => True
  | record name => ∃ p, t.props.get? index = some p ∧ p.name = name
  | link i => i = index

/-- An operation is of the kind that meets a need. -/
def MetBy : Need → Operation → Prop
  | global, .setGlobal g => g.enable = true
  | record name, .setInterface c => c.name = name ∧ c.enable = true
  | link index, .interfaceCreated p => p.index = index ∧ p.up = true
  | link index, .interfaceStateChanged i up _ => i = index ∧ up = true
  | _, _ => False

end Need

/-- The needs of an interface that is served are met. -/
theorem Serves.met {t : Tracker} {i : Int} {need : Need} (h : t.Serves i)
    (hneed : need.Concerns t i) : need.Met t := by
  obtain ⟨p, c, g, hp, hup, hc, he, hg, hge⟩ := h
  cases need with
  | global => exact ⟨g, hg, hge⟩
  | record name =>
    obtain ⟨q, hq, rfl⟩ := hneed
    obtain rfl := Option.some.inj (hp.symm.trans hq)
    exact ⟨c, hc, he⟩
  | link j =>
    obtain rfl : j = i := hneed
    exact ⟨p, hp, hup⟩

/-! ## What operations change -/

section
variable (t : Tracker)

/-- An address that appeared concerns the main table unless it is a link-local one. -/
theorem props_interfaceCreated (family : Family) (p : Property) :
    (t.interfaceCreated family p).props =
      if reach family p.address = .linkLocal then t.props else (t.props.upsert p).2 := by
  refine (t.table_apply family (.interfaceCreated p) .main).trans ?_
  by_cases hr : reach family p.address = .linkLocal <;> simp [Operation.onTable, table, hr]

/-- A change of tables concerns the main table unless it reaches the other one only. -/
theorem props_onTables (r : Reach) (f : PropertyTable → PropertyTable) :
    (t.onTables r f).props = if r = .linkLocal then t.props else f t.props := by
  cases r <;> rfl

/-- An address that disappeared concerns the main table unless it is a link-local one. -/
theorem props_interfaceDeleted (family : Family) (i : Int) (address : Option IpAddress) :
    (t.interfaceDeleted family i address).props =
      if reach family address = .linkLocal then t.props else (t.props.remove i).2 := by
  rw [interfaceDeleted, props_reevaluate, props_onTables]

/-- An interface that went up or down did so in the main table unless its address is a link-local
one. -/
theorem props_interfaceStateChanged (family : Family) (i : Int) (up : Bool)
    (address : Option IpAddress) :
    (t.interfaceStateChanged family i up address).props =
      if reach family address = .linkLocal then t.props else (t.props.setUp i up).2 := by
  rw [interfaceStateChanged, props_reevaluate, props_onTables]

variable {t} {family : Family}

/-- The global record that is enabled after an operation was enabled before, or is set by it. -/
theorem Need.global_of_met_apply (o : Operation) (h : Need.global.Met (t.apply family o)) :
    Need.global.Met t ∨ Need.global.MetBy o := by
  obtain ⟨g, hg, he⟩ := h
  cases o with
  | setGlobal c =>
    rw [apply, global_setGlobal] at hg
    obtain rfl := Option.some.inj hg
    exact .inr he
  | clearGlobal => cases hg
  | setInterface c => exact .inl ⟨g, by rwa [apply, global_setInterface] at hg, he⟩
  | removeInterface name => exact .inl ⟨g, by rwa [apply, global_removeInterface] at hg, he⟩
  | interfaceCreated p => exact .inl ⟨g, by rwa [apply, global_interfaceCreated] at hg, he⟩
  | interfaceDeleted => exact .inl ⟨g, by rwa [apply, global_interfaceDeleted] at hg, he⟩
  | interfaceStateChanged =>
    exact .inl ⟨g, by rwa [apply, global_interfaceStateChanged] at hg, he⟩

/-- The record of a name that is enabled after an operation was enabled before, or is set by it. -/
theorem Need.record_of_met_apply {name : String} (o : Operation)
    (h : (Need.record name).Met (t.apply family o)) :
    (Need.record name).Met t ∨ (Need.record name).MetBy o := by
  obtain ⟨c, hc, he⟩ := h
  cases o with
  | setGlobal => exact .inl ⟨c, by rwa [apply, configs_setGlobal] at hc, he⟩
  | clearGlobal => exact .inl ⟨c, hc, he⟩
  | setInterface c' =>
    rw [apply, configs_setInterface, SortedTable.get?_insert_eq] at hc
    split at hc
    · next hname =>
      obtain rfl := Option.some.inj hc
      exact .inr ⟨hname.symm, he⟩
    · exact .inl ⟨c, hc, he⟩
  | removeInterface other =>
    rw [apply, configs_removeInterface, SortedTable.get?_erase_eq] at hc
    split at hc
    · cases hc
    · exact .inl ⟨c, hc, he⟩
  | interfaceCreated => exact .inl ⟨c, by rwa [apply, configs_interfaceCreated] at hc, he⟩
  | interfaceDeleted => exact .inl ⟨c, by rwa [apply, configs_interfaceDeleted] at hc, he⟩
  | interfaceStateChanged =>
    exact .inl ⟨c, by rwa [apply, configs_interfaceStateChanged] at hc, he⟩

/-- An index that is up after an operation was up before, or comes up by it. -/
theorem Need.link_of_met_apply {i : Int} (o : Operation)
    (h : (Need.link i).Met (t.apply family o)) :
    (Need.link i).Met t ∨ (Need.link i).MetBy o := by
  obtain ⟨p, hp, hup⟩ := h
  have hkept : t.props.get? i = some p → (Need.link i).Met t ∨ (Need.link i).MetBy o :=
    fun hp => .inl ⟨p, hp, hup⟩
  have hsame : ∀ {u : Tracker}, u.table .main = t.table .main → u.props.get? i = some p →
      t.props.get? i = some p := fun htable hp => (congrArg (·.get? i) htable).symm.trans hp
  cases o with
  | setGlobal c => exact hkept (hsame (t.table_setGlobal c .main) hp)
  | clearGlobal => exact hkept hp
  | setInterface c => exact hkept (hsame (t.table_setInterface c .main) hp)
  | removeInterface name => exact hkept (hsame (t.table_removeInterface name .main) hp)
  | interfaceCreated q =>
    rw [apply, props_interfaceCreated] at hp
    split at hp
    · exact hkept hp
    · rw [PropertyTable.get?_upsert] at hp
      split at hp
      · next hi =>
        obtain rfl := Option.some.inj hp
        exact .inr ⟨hi.symm, hup⟩
      · split at hp
        · cases hp
        · exact hkept hp
  | interfaceDeleted j address =>
    rw [apply, props_interfaceDeleted] at hp
    split at hp
    · exact hkept hp
    · rw [PropertyTable.get?_remove] at hp
      split at hp
      · cases hp
      · exact hkept hp
  | interfaceStateChanged j up address =>
    rw [apply, props_interfaceStateChanged] at hp
    split at hp
    · exact hkept hp
    · rw [PropertyTable.get?_setUp] at hp
      split at hp
      · next hi =>
        obtain ⟨q, -, rfl⟩ := Option.map_eq_some_iff.1 hp
        exact .inr ⟨hi.symm, hup⟩
      · exact hkept hp

/-- What is met after an operation was met before, unless the operation is of the kind that meets
it. -/
theorem Need.met_of_met_apply (need : Need) (o : Operation) (h : need.Met (t.apply family o)) :
    need.Met t ∨ need.MetBy o := by
  cases need with
  | global => exact global_of_met_apply o h
  | record name => exact record_of_met_apply o h
  | link i => exact link_of_met_apply o h

end

end Tracker

/-! ## Operations of an agent -/

namespace Agent

/-- The change of the tracker that an elementary operation means, if it is carried out. -/
def Operation.change? : Operation → Option Tracker.Operation
  | .updateGlobal c => some (.setGlobal c)
  | .deleteGlobal => some .clearGlobal
  | .createInterface c => some (.setInterface c)
  | .updateInterface c => some (.setInterface c)
  | .deleteInterface name => some (.removeInterface name)
  | .notify e => (eventAddress? e).map fun address =>
    match e.change with
    | .created up => .interfaceCreated
      { index := e.index, name := e.name, address := address.map Cidr.address,
        prefixLen := (address.map Cidr.prefixLen).getD 0, up }
    | .deleted => .interfaceDeleted e.index (address.map Cidr.address)
    | .stateChanged up => .interfaceStateChanged e.index up (address.map Cidr.address)

section
variable {σ : Type} {l : Lifecycle σ} {family : Family} {a : Agent σ} {need : Tracker.Need}

/-- An update of an interface record stores it or does nothing. -/
theorem tracker_updateInterface_cases (l : Lifecycle σ) (family : Family) (a : Agent σ)
    (c : InterfaceConfig) : (a.updateInterface l family c).2.tracker = a.tracker ∨
      (a.updateInterface l family c).2.tracker = a.tracker.setInterface c := by
  rw [tracker_updateInterface]
  split
  · exact .inl rfl
  · exact .inr rfl

/-- A record of an interface that has to exist is stored, or nothing happens. -/
theorem tracker_createInterface_cases (l : Lifecycle σ) (family : Family) (a : Agent σ)
    (c : InterfaceConfig) : (a.createInterface l family c).2.tracker = a.tracker ∨
      (a.createInterface l family c).2.tracker = a.tracker.setInterface c := by
  unfold createInterface
  split
  · exact .inl rfl
  · exact tracker_updateInterface_cases l family a c

/-- An elementary operation changes the tracker as it means, or does nothing. -/
theorem tracker_apply_cases (l : Lifecycle σ) (family : Family) (a : Agent σ) (o : Operation) :
    (a.apply l family o).tracker = a.tracker ∨ ∃ f change, o.change? = some change ∧
      (a.apply l family o).tracker = a.tracker.apply f change := by
  cases o with
  | updateGlobal c =>
    have htracker := tracker_updateGlobal l a c
    split at htracker
    · exact .inl htracker
    · exact .inr ⟨family, _, rfl, htracker⟩
  | deleteGlobal => exact .inr ⟨family, _, rfl, tracker_reconcile l a _⟩
  | createInterface c =>
    exact (tracker_createInterface_cases l family a c).imp_right fun h => ⟨family, _, rfl, h⟩
  | updateInterface c =>
    exact (tracker_updateInterface_cases l family a c).imp_right fun h => ⟨family, _, rfl, h⟩
  | deleteInterface name => exact .inr ⟨family, _, rfl, tracker_deleteInterface l a name⟩
  | notify e =>
    have htracker : (a.apply l family (.notify e)).tracker = _ := tracker_notify l a e
    cases haddress : eventAddress? e with
    | none => exact .inl (by rw [htracker, haddress])
    | some address =>
      refine .inr ⟨e.family, _, by rw [Operation.change?, haddress, Option.map_some], ?_⟩
      rw [htracker, haddress]
      unfold eventChange
      cases e.change <;> rfl

/-- What is not met stays so in elementary operations of other kinds. -/
theorem not_met_applyAll (h : ¬ need.Met a.tracker) {os : List Operation}
    (hos : ∀ o ∈ os, ∀ change, o.change? = some change → ¬ need.MetBy change) :
    ¬ need.Met (a.applyAll l family os).tracker := by
  induction os generalizing a with
  | nil => exact h
  | cons o os ih =>
    refine ih (fun hmet => ?_) fun o' ho' => hos o' (List.mem_cons_of_mem o ho')
    rcases tracker_apply_cases l family a o with hsame | ⟨f, change, hchange, htracker⟩
    · exact h (hsame ▸ hmet)
    · rw [htracker] at hmet
      rcases need.met_of_met_apply change hmet with hbefore | hby
      · exact h hbefore
      · exact hos o List.mem_cons_self change hchange hby

end

end Agent

/-! ## Operations of the manager -/

namespace Manager

/-- One of the elementary operations of an operation is of the kind that meets a need of interfaces
of the family. -/
def Operation.CanMeet (family : Family) (need : Tracker.Need) (o : Operation) : Prop :=
  o.family = family ∧
    ∃ part ∈ o.parts, ∃ change, part.change? = some change ∧ need.MetBy change

/-- The configurations whose difference a change of the configuration applies, if it is a load. -/
def ConfigOperation.load? : ConfigOperation → Option (FamilyConfig × FamilyConfig)
  | .init c => some ({}, c)
  | .reload old new => some (old, new)
  | .updateGlobal _ | .deleteGlobal | .createInterface _ | .updateInterface _
  | .deleteInterface _ => none

/-- An operation takes a need of interfaces of the family away. -/
inductive Withdraws (family : Family) (t : Tracker) : Tracker.Need → Operation → Prop where
  /-- The family is disabled. -/
  | disableFamily {c : GlobalConfig} (haccepted : c.validate = .ok ()) (h : c.enable = false) :
      Withdraws family t .global (.configure family (.updateGlobal c))
  /-- The global record is deleted. -/
  | deleteGlobal : Withdraws family t .global (.configure family .deleteGlobal)
  /-- The interface is disabled. -/
  | disable {c : InterfaceConfig} (haccepted : t.validateInterface family c = .ok ())
      (h : c.enable = false) :
      Withdraws family t (.record c.name) (.configure family (.updateInterface c))
  /-- The interface's record is deleted. -/
  | delete (name : String) :
      Withdraws family t (.record name) (.configure family (.deleteInterface name))
  /-- The interface, which has to exist, is disabled. -/
  | disableKnown {c : InterfaceConfig} (hknown : t.props.index? c.name ≠ none)
      (haccepted : t.validateInterface family c = .ok ()) (h : c.enable = false) :
      Withdraws family t (.record c.name) (.configure family (.createInterface c))
  /-- A load drops the global record. -/
  | dropGlobal {o : ConfigOperation} {old new : FamilyConfig} (hload : o.load? = some (old, new))
      (hold : old.global.isSome = true) (hnew : new.global = none) :
      Withdraws family t .global (.configure family o)
  /-- A load disables the family. -/
  | replaceGlobal {o : ConfigOperation} {old new : FamilyConfig} {c : GlobalConfig}
      (hload : o.load? = some (old, new)) (hold : old.global ≠ some c) (hnew : new.global = some c)
      (haccepted : c.validate = .ok ()) (h : c.enable = false) :
      Withdraws family t .global (.configure family o)
  /-- A load drops the interface's record. -/
  | drop {o : ConfigOperation} {old new : FamilyConfig} {name : String}
      (hload : o.load? = some (old, new)) (hold : (old.find? name).isSome = true)
      (hnew : new.find? name = none) : Withdraws family t (.record name) (.configure family o)
  /-- A load disables the interface. -/
  | replace {o : ConfigOperation} {old new : FamilyConfig} {c : InterfaceConfig}
      (hload : o.load? = some (old, new)) (hdistinct : new.Distinct)
      (hold : old.find? c.name ≠ some c) (hnew : c ∈ new.interfaces)
      (haccepted : t.validateInterface family c = .ok ()) (h : c.enable = false) :
      Withdraws family t (.record c.name) (.configure family o)
  /-- The interface goes down. -/
  | down {e : Event} {address : Option Cidr} (hfamily : e.family = family)
      (haddress : Agent.eventAddress? e = some address)
      (hmain : Tracker.reach family (address.map Cidr.address) ≠ .linkLocal)
      (h : e.change = .stateChanged false) : Withdraws family t (.link e.index) (.notify e)
  /-- The interface is reported anew, and is down. -/
  | reportedDown {e : Event} {address : Option Cidr} (hfamily : e.family = family)
      (haddress : Agent.eventAddress? e = some address)
      (hmain : Tracker.reach family (address.map Cidr.address) ≠ .linkLocal)
      (h : e.change = .created false) : Withdraws family t (.link e.index) (.notify e)
  /-- The interface loses its address. -/
  | gone {e : Event} {address : Option Cidr} (hfamily : e.family = family)
      (haddress : Agent.eventAddress? e = some address)
      (hmain : Tracker.reach family (address.map Cidr.address) ≠ .linkLocal)
      (h : e.change = .deleted) : Withdraws family t (.link e.index) (.notify e)
  /-- The interface loses its name to another index. -/
  | renamed {e : Event} {address : Option Cidr} {up : Bool} {index : Int}
      (hfamily : e.family = family) (haddress : Agent.eventAddress? e = some address)
      (hmain : Tracker.reach family (address.map Cidr.address) ≠ .linkLocal)
      (h : e.change = .created up) (hname : t.props.index? e.name = some index)
      (hother : index ≠ e.index) : Withdraws family t (.link index) (.notify e)

section
variable {σ₄ σ₆ : Type} {l : Lifecycles σ₄ σ₆} {m : Manager σ₄ σ₆} {family : Family}
  {need : Tracker.Need} {o : Operation}

/-- An operation leaves the tracker of the other family alone. -/
theorem tracker_apply_of_ne (l : Lifecycles σ₄ σ₆) (m : Manager σ₄ σ₆) (h : o.family ≠ family) :
    (m.apply l o).tracker family = m.tracker family := by
  rw [apply_eq]
  generalize o.family = other at h
  cases other <;> cases family <;> first | rfl | exact absurd rfl h

/-- What is not met stays so in operations that are not of the kind that meets it. -/
theorem not_met_apply (h : ¬ need.Met (m.tracker family)) (ho : ¬ o.CanMeet family need) :
    ¬ need.Met ((m.apply l o).tracker family) := by
  by_cases hfamily : o.family = family
  · subst hfamily
    rw [apply_eq]
    refine onAgent_spec (P := fun t t' _ => ¬ need.Met t → ¬ need.Met t') l m o.family
      (fun l a hmet => ?_) h
    exact Agent.not_met_applyAll hmet fun part hpart change hchange hmetBy =>
      ho ⟨rfl, part, hpart, change, hchange, hmetBy⟩
  · rwa [tracker_apply_of_ne l m hfamily]

/-- An event of a family changes the family's tracker as it means. -/
theorem tracker_apply_notify {e : Event} {address : Option Cidr} (hfamily : e.family = family)
    (haddress : Agent.eventAddress? e = some address) :
    (m.apply l (.notify e)).tracker family = Agent.eventChange e address (m.tracker family) := by
  have htracker : (m.apply l (.notify e)).tracker family = _ := tracker_notify l m e family
  rw [htracker, if_pos hfamily.symm, haddress]

/-- A global record that is accepted is stored. -/
theorem tracker_apply_updateGlobal {c : GlobalConfig} (haccepted : c.validate = .ok ()) :
    (m.apply l (.configure family (.updateGlobal c))).tracker family =
      (m.tracker family).setGlobal c := by
  refine onAgent_spec (P := fun t t' _ => t' = t.setGlobal c) l m family fun l a => ?_
  rw [Agent.tracker_updateGlobal, GlobalConfig.rejection?, haccepted]
  rfl

/-- The global record is deleted. -/
theorem tracker_apply_deleteGlobal : (m.apply l (.configure family .deleteGlobal)).tracker family =
    (m.tracker family).clearGlobal :=
  onAgent_spec (P := fun t t' _ => t' = t.clearGlobal) l m family fun l a =>
    Agent.tracker_reconcile l a _

/-- A record of an interface that is accepted is stored. -/
theorem tracker_apply_updateInterface {c : InterfaceConfig}
    (haccepted : (m.tracker family).validateInterface family c = .ok ()) :
    (m.apply l (.configure family (.updateInterface c))).tracker family =
      (m.tracker family).setInterface c := by
  refine onAgent_spec
    (P := fun t t' _ => t.validateInterface family c = .ok () → t' = t.setInterface c) l m family
    (fun l a hok => ?_) haccepted
  rw [Agent.tracker_updateInterface, Tracker.rejection?, hok]
  rfl

/-- The record of an interface is deleted. -/
theorem tracker_apply_deleteInterface (name : String) :
    (m.apply l (.configure family (.deleteInterface name))).tracker family =
      (m.tracker family).removeInterface name :=
  onAgent_spec (P := fun t t' _ => t' = t.removeInterface name) l m family fun l a =>
    Agent.tracker_deleteInterface l a name

/-- A record of an interface that exists is stored if it is accepted. -/
theorem tracker_apply_createInterface {c : InterfaceConfig}
    (hknown : (m.tracker family).props.index? c.name ≠ none)
    (haccepted : (m.tracker family).validateInterface family c = .ok ()) :
    (m.apply l (.configure family (.createInterface c))).tracker family =
      (m.tracker family).setInterface c := by
  refine onAgent_spec
    (P := fun t t' _ => t.props.index? c.name ≠ none → t.validateInterface family c = .ok () →
      t' = t.setInterface c) l m family (fun l a hknown hok => ?_) hknown haccepted
  rw [Agent.createInterface, if_neg (by simpa using hknown), Agent.tracker_updateInterface,
    Tracker.rejection?, hok]
  rfl

/-- What every load does to trackers, an operation does that is a load. -/
theorem tracker_apply_load {P : Tracker → Tracker → Prop} {o : ConfigOperation}
    {old new : FamilyConfig} (hload : o.load? = some (old, new))
    (h : ∀ {σ : Type} (l : Lifecycle σ) (a : Agent σ),
      P a.tracker (a.reload l family old new).2.tracker) :
    P (m.tracker family) ((m.apply l (.configure family o)).tracker family) := by
  have hreload : m.apply l (.configure family o) = (m.reload l family old new).2 := by
    cases o with
    | updateGlobal | deleteGlobal | createInterface | updateInterface | deleteInterface =>
      cases hload
    | init =>
      cases hload
      exact congrArg Prod.snd (init_eq_reload l m family new)
    | reload =>
      cases hload
      rfl
  rw [hreload]
  exact onAgent_spec (P := fun t t' _ => P t t') l m family h

section
variable {o : ConfigOperation} {old new : FamilyConfig} (hload : o.load? = some (old, new))
include hload

/-- After a load the global record is the new one, unless that is the old one or rejected. -/
theorem global_apply_load : ((m.apply l (.configure family o)).tracker family).global =
    if new.global = old.global ∨ (new.global.bind GlobalConfig.rejection?).isSome then
      (m.tracker family).global
    else new.global :=
  tracker_apply_load (P := fun t t' => t'.global =
      if new.global = old.global ∨ (new.global.bind GlobalConfig.rejection?).isSome then t.global
      else new.global)
    hload fun l a => a.global_reload l family old new

/-- After a load a name that is not listed any more has no record. -/
theorem get?_apply_load_of_unlisted {name : String} (h : new.find? name = none) :
    ((m.apply l (.configure family o)).tracker family).configs.get? name =
      if (old.find? name).isSome then none else (m.tracker family).configs.get? name :=
  tracker_apply_load
    (P := fun t t' => t'.configs.get? name =
      if (old.find? name).isSome then none else t.configs.get? name)
    hload fun l a => a.get?_reload_of_unlisted l family h

/-- After a load of distinct records one that changed is stored if it is accepted. -/
theorem get?_apply_load_of_changed (hnew : new.Distinct) {c : InterfaceConfig}
    (hc : c ∈ new.interfaces) (hchanged : old.find? c.name ≠ some c)
    (haccepted : (m.tracker family).validateInterface family c = .ok ()) :
    ((m.apply l (.configure family o)).tracker family).configs.get? c.name = some c := by
  refine tracker_apply_load
    (P := fun t t' => t.validateInterface family c = .ok () → t'.configs.get? c.name = some c)
    hload (fun l a hok => ?_) haccepted
  have hkept : a.tracker.rejection? family c = none := by
    rw [Tracker.rejection?, hok]
    rfl
  rw [a.get?_reload_of_changed l family hnew hc hchanged, if_pos hkept]

end

/-- What is withdrawn is not met. -/
theorem Withdraws.not_met (h : Withdraws family (m.tracker family) need o)
    (l : Lifecycles σ₄ σ₆) : ¬ need.Met ((m.apply l o).tracker family) := by
  cases h with
  | disableFamily haccepted henable =>
    rintro ⟨g, hg, he⟩
    rw [tracker_apply_updateGlobal haccepted, Tracker.global_setGlobal] at hg
    obtain rfl := Option.some.inj hg
    cases henable.symm.trans he
  | deleteGlobal =>
    rintro ⟨g, hg, -⟩
    rw [tracker_apply_deleteGlobal] at hg
    cases hg
  | disable haccepted henable =>
    rintro ⟨c', hc', he⟩
    rw [tracker_apply_updateInterface haccepted, Tracker.configs_setInterface,
      SortedTable.get?_insert_eq, if_pos rfl] at hc'
    obtain rfl := Option.some.inj hc'
    cases henable.symm.trans he
  | delete name =>
    rintro ⟨c, hc, -⟩
    rw [tracker_apply_deleteInterface, Tracker.configs_removeInterface, SortedTable.get?_erase_eq,
      if_pos rfl] at hc
    cases hc
  | disableKnown hknown haccepted henable =>
    rintro ⟨c', hc', he⟩
    rw [tracker_apply_createInterface hknown haccepted, Tracker.configs_setInterface,
      SortedTable.get?_insert_eq, if_pos rfl] at hc'
    obtain rfl := Option.some.inj hc'
    cases henable.symm.trans he
  | dropGlobal hload hold hnew =>
    rintro ⟨g, hg, -⟩
    have hchanged : none ≠ _ := fun h => Option.isSome_iff_ne_none.1 hold h.symm
    rw [global_apply_load hload, hnew, if_neg (by simp [hchanged])] at hg
    cases hg
  | @replaceGlobal o old new c hload hold hnew haccepted henable =>
    rintro ⟨g, hg, he⟩
    have hkept : c.rejection?.isSome = false := by
      rw [GlobalConfig.rejection?, haccepted]
      rfl
    rw [global_apply_load hload, hnew, if_neg (by simp [hold.symm, hkept])] at hg
    obtain rfl := Option.some.inj hg
    cases henable.symm.trans he
  | drop hload hold hnew =>
    rintro ⟨c, hc, -⟩
    rw [get?_apply_load_of_unlisted hload hnew, if_pos hold] at hc
    cases hc
  | replace hload hdistinct hold hnew haccepted henable =>
    rintro ⟨c', hc', he⟩
    rw [get?_apply_load_of_changed hload hdistinct hnew hold haccepted] at hc'
    obtain rfl := Option.some.inj hc'
    cases henable.symm.trans he
  | @reportedDown e address hfamily haddress hmain hchange =>
    rintro ⟨p, hp, hup⟩
    rw [tracker_apply_notify hfamily haddress, Agent.eventChange, hchange, hfamily] at hp
    dsimp only at hp
    rw [Tracker.props_interfaceCreated, if_neg hmain, PropertyTable.get?_upsert, if_pos rfl] at hp
    obtain rfl := Option.some.inj hp
    cases hup
  | @down e address hfamily haddress hmain hchange =>
    rintro ⟨p, hp, hup⟩
    rw [tracker_apply_notify hfamily haddress, Agent.eventChange, hchange, hfamily] at hp
    dsimp only at hp
    rw [Tracker.props_interfaceStateChanged, if_neg hmain, PropertyTable.get?_setUp,
      if_pos rfl] at hp
    obtain ⟨q, -, rfl⟩ := Option.map_eq_some_iff.1 hp
    cases hup
  | @gone e address hfamily haddress hmain hchange =>
    rintro ⟨p, hp, -⟩
    rw [tracker_apply_notify hfamily haddress, Agent.eventChange, hchange, hfamily] at hp
    dsimp only at hp
    rw [Tracker.props_interfaceDeleted, if_neg hmain, PropertyTable.get?_remove, if_pos rfl] at hp
    cases hp
  | @renamed e address up index hfamily haddress hmain hchange hname hother =>
    rintro ⟨p, hp, -⟩
    rw [tracker_apply_notify hfamily haddress, Agent.eventChange, hchange, hfamily] at hp
    dsimp only at hp
    rw [Tracker.props_interfaceCreated, if_neg hmain, PropertyTable.get?_upsert, if_neg hother,
      if_pos hname] at hp
    cases hp

end

end Manager

end DhcpRelay
