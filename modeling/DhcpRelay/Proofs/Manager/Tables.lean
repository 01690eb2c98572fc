import DhcpRelay.Proofs.Manager.Operation
import DhcpRelay.Proofs.Watch.Regular

/-!
# The property tables of a manager

A family has a table for each kind of address. What an operation of a tracker makes of a table
depends on that table alone (`Tracker.table_apply`). Configuration leaves all tables alone
(`Manager.table_configure`), and an event whose address is placed changes the one table that its
address belongs to (`Manager.table_notify`).
-/

namespace DhcpRelay

open Interface (Change Event Property PropertyTable)
open Watch (Entry Key Kind Snapshot placeOf)

/-! ## Tables of a tracker -/

namespace Tracker

/-- The table of the addresses of a kind. -/
def table (t : Tracker) : Kind → PropertyTable
  | .main => t.props
  | .linkLocal => t.linkLocal

/-- The reach of a change that concerns the addresses of a kind only. -/
def reachOf : Kind → Reach
  | .main => .main
  | .linkLocal => .linkLocal

/-- Whether a change of this reach concerns the table of a kind. -/
def Reach.concerns : Reach → Kind → Bool
  | .both, _ | .main, .main | .linkLocal, .linkLocal => true
  | .main, .linkLocal | .linkLocal, .main => false

/-- What an operation does to the table of a kind. -/
def Operation.onTable (family : Family) (k : Kind) : Operation → PropertyTable → PropertyTable
  | .setGlobal _, table | .clearGlobal, table => table
  | .setInterface _, table | .removeInterface _, table => table
  | .interfaceCreated p, table =>
    if (reach family p.address = .linkLocal ↔ k = .linkLocal) then (table.upsert p).2 else table
  | .interfaceDeleted i address, table =>
    if (reach family address).concerns k then (table.remove i).2 else table
  | .interfaceStateChanged i up address, table =>
    if (reach family address).concerns k then (table.setUp i up).2 else table

section
variable (t : Tracker) {family : Family} {kind : Kind}

@[simp] theorem table_reevaluate (i : Int) (k : Kind) : (t.reevaluate i).table k = t.table k := by
  cases k
  · exact props_reevaluate i
  · exact linkLocal_reevaluate i

@[simp] theorem table_rebuild (k : Kind) : t.rebuild.table k = t.table k := by
  cases k
  · exact props_rebuild
  · exact linkLocal_rebuild

@[simp] theorem table_reevaluateName (name : String) (k : Kind) :
    (t.reevaluateName name).table k = t.table k := by
  unfold reevaluateName
  split
  · exact t.table_reevaluate _ k
  · rfl

@[simp] theorem table_setGlobal (c : GlobalConfig) (k : Kind) :
    (t.setGlobal c).table k = t.table k :=
  (table_rebuild _ k).trans (by cases k <;> rfl)

@[simp] theorem table_clearGlobal (k : Kind) : t.clearGlobal.table k = t.table k := by
  cases k <;> rfl

@[simp] theorem table_setInterface (c : InterfaceConfig) (k : Kind) :
    (t.setInterface c).table k = t.table k :=
  (table_reevaluateName _ c.name k).trans (by cases k <;> rfl)

@[simp] theorem table_removeInterface (name : String) (k : Kind) :
    (t.removeInterface name).table k = t.table k :=
  (table_reevaluateName _ name k).trans (by cases k <;> rfl)

/-- The index that lost its property is reevaluated, and the tables stay as they are. -/
@[simp] theorem table_reevaluateEvicted (evicted : Option Int) (k : Kind) :
    (t.reevaluateEvicted evicted).table k = t.table k := by
  cases evicted with
  | none => rfl
  | some old => exact t.table_reevaluate old k

/-- A change of the tables that are concerned, and of no other one. -/
theorem table_onTables_eq (t : Tracker) (r : Reach) (f : PropertyTable → PropertyTable) (k : Kind) :
    (t.onTables r f).table k = if r.concerns k then f (t.table k) else t.table k := by
  cases r <;> cases k <;> rfl

/-- What an operation makes of a table. -/
theorem table_apply (t : Tracker) (family : Family) (o : Operation) (k : Kind) :
    (t.apply family o).table k = o.onTable family k (t.table k) := by
  cases o with
  | setGlobal c => exact t.table_setGlobal c k
  | clearGlobal => exact t.table_clearGlobal k
  | setInterface c => exact t.table_setInterface c k
  | removeInterface name => exact t.table_removeInterface name k
  | interfaceCreated p =>
    rw [apply, interfaceCreated_eq]
    by_cases hr : reach family p.address = .linkLocal
    · rw [if_pos hr, table_reevaluate, table_reevaluateEvicted]
      cases k <;> simp [Operation.onTable, hr, table]
    · rw [if_neg hr, table_reevaluate, table_reevaluateEvicted]
      cases k <;> simp [Operation.onTable, hr, table]
  | interfaceDeleted i address =>
    rw [apply, interfaceDeleted, table_reevaluate, table_onTables_eq]
    rfl
  | interfaceStateChanged i up address =>
    rw [apply, interfaceStateChanged, table_reevaluate, table_onTables_eq]
    rfl

/-- What an operation makes of the tables depends on the tables alone. -/
theorem table_apply_congr {t u : Tracker} (h : ∀ k, t.table k = u.table k) (family : Family)
    (o : Operation) (k : Kind) : (t.apply family o).table k = (u.apply family o).table k := by
  rw [table_apply, table_apply, h]

/-- An address belongs to the table of its kind. -/
theorem reach_of_placeOf {a : IpAddress} (h : placeOf a = (family, kind)) :
    reach family (some a) = reachOf kind := by
  cases a with
  | v4 a =>
    cases h
    rfl
  | v6 a =>
    cases h
    by_cases ha : a.isLinkLocal = true <;> simp [reach, IpAddress.isLinkLocalV6, reachOf, ha]

/-- An address that appeared is stored in the table of its kind. -/
theorem table_interfaceCreated {p : Property} (h : reach family p.address = reachOf kind)
    (k : Kind) : (t.interfaceCreated family p).table k =
      if k = kind then ((t.table kind).upsert p).2 else t.table k := by
  refine (t.table_apply family (.interfaceCreated p) k).trans ?_
  rw [Operation.onTable, h]
  cases kind <;> cases k <;> rfl

/-- A change of the tables that concerns the addresses of a kind. -/
theorem table_onTables (f : PropertyTable → PropertyTable) (k : Kind) :
    (t.onTables (reachOf kind) f).table k = if k = kind then f (t.table kind) else t.table k := by
  cases kind <;> cases k <;> rfl

/-- An address that disappeared is removed from the table of its kind. -/
theorem table_interfaceDeleted {address : Option IpAddress}
    (h : reach family address = reachOf kind) (i : Int) (k : Kind) :
    (t.interfaceDeleted family i address).table k =
      if k = kind then ((t.table kind).remove i).2 else t.table k := by
  rw [interfaceDeleted, h, table_reevaluate, table_onTables]

/-- An interface that went up or down is so in the table of the address' kind. -/
theorem table_interfaceStateChanged {address : Option IpAddress}
    (h : reach family address = reachOf kind) (i : Int) (up : Bool) (k : Kind) :
    (t.interfaceStateChanged family i up address).table k =
      if k = kind then ((t.table kind).setUp i up).2 else t.table k := by
  rw [interfaceStateChanged, h, table_reevaluate, table_onTables]

end

end Tracker

/-! ## Tables of an agent -/

namespace Agent

/-- An elementary operation changes the configuration: it is not an event. -/
def Operation.Configures : Operation → Prop
  | .notify _ => False
  | _ => True

section
variable {σ : Type} {l : Lifecycle σ} {family : Family} {a : Agent σ}

/-- An update of an interface record leaves the tables alone. -/
theorem table_updateInterface (l : Lifecycle σ) (family : Family) (a : Agent σ)
    (c : InterfaceConfig) (k : Kind) :
    (a.updateInterface l family c).2.tracker.table k = a.tracker.table k := by
  cases hv : a.tracker.validateInterface family c with
  | error e => rw [updateInterface_of_error hv]
  | ok =>
    rw [updateInterface_of_ok hv]
    dsimp only
    split
    · exact a.tracker.table_setInterface c k
    · rw [tracker_reconcile, tracker_announce]
      exact a.tracker.table_setInterface c k

/-- A change of the configuration leaves the tables alone. -/
theorem table_apply {o : Operation} (ho : o.Configures) (k : Kind) :
    (a.apply l family o).tracker.table k = a.tracker.table k := by
  cases o with
  | updateGlobal c =>
    show (a.updateGlobal l c).2.tracker.table k = _
    unfold updateGlobal
    split
    · rfl
    · simp
  | deleteGlobal =>
    show (a.reconcile l _).tracker.table k = _
    simp
  | createInterface c =>
    show (a.createInterface l family c).2.tracker.table k = _
    unfold createInterface
    split
    · rfl
    · exact table_updateInterface l family a c k
  | updateInterface c => exact table_updateInterface l family a c k
  | deleteInterface name =>
    show (a.reconcile l _).tracker.table k = _
    simp
  | notify e => exact ho.elim

/-- Changes of the configuration leave the tables alone. -/
theorem table_applyAll {os : List Operation} (hos : ∀ o ∈ os, o.Configures) (k : Kind) :
    (a.applyAll l family os).tracker.table k = a.tracker.table k := by
  induction os generalizing a with
  | nil => rfl
  | cons o os ih =>
    refine (ih fun p hp => hos p (List.mem_cons_of_mem o hp)).trans ?_
    exact table_apply (hos o List.mem_cons_self) k

/-- An event changes the tracker as it means, or is passed over. -/
theorem tracker_notify (l : Lifecycle σ) (a : Agent σ) (e : Event) :
    (a.notify l e).tracker = match eventAddress? e with
      | none => a.tracker
      | some address => eventChange e address a.tracker := by
  unfold notify
  cases eventAddress? e with
  | none => rfl
  | some address => exact tracker_reconcile l a _

end

end Agent

/-! ## Tables of a manager -/

namespace Manager

/-- What an operator does is no event. -/
theorem ConfigOperation.configures (o : ConfigOperation) : ∀ p ∈ o.parts, p.Configures := by
  intro p hp
  cases o with
  | updateGlobal | deleteGlobal | createInterface | updateInterface | deleteInterface =>
    obtain rfl := List.mem_singleton.1 hp
    trivial
  | init c =>
    rcases List.mem_append.1 hp with hp | hp
    · exact List.forall_mem_map.2 (fun _ _ => trivial) p hp
    · exact List.forall_mem_map.2 (fun _ _ => trivial) p hp
  | reload old new =>
    rcases List.mem_append.1 hp with hp | hp
    · rcases List.mem_append.1 hp with hp | hp
      · unfold Agent.reloadGlobalParts at hp
        split at hp
        · obtain rfl := List.mem_singleton.1 hp
          trivial
        · obtain rfl := List.mem_singleton.1 hp
          trivial
        · split at hp
          · simp at hp
          · obtain rfl := List.mem_singleton.1 hp
            trivial
        · simp at hp
      · exact List.forall_mem_map.2 (fun _ _ => trivial) p hp
    · exact List.forall_mem_map.2 (fun _ _ => trivial) p hp

section
variable {σ₄ σ₆ : Type} {l : Lifecycles σ₄ σ₆} {m : Manager σ₄ σ₆}

/-- The table of the addresses of a family and kind. -/
def table (m : Manager σ₄ σ₆) (family : Family) (kind : Kind) : PropertyTable :=
  (m.tracker family).table kind

/-- Configuration leaves the tables alone. -/
theorem table_configure (l : Lifecycles σ₄ σ₆) (m : Manager σ₄ σ₆) (family : Family)
    (o : ConfigOperation) (f : Family) (k : Kind) :
    (m.configure l family o).table f k = m.table f k := by
  rw [show m.configure l family o = m.apply l (.configure family o) from rfl, apply_eq]
  cases family <;> cases f <;> first | rfl | exact Agent.table_applyAll o.configures k

/-- An event changes the tracker of its family as it means, or is passed over. -/
theorem tracker_notify (l : Lifecycles σ₄ σ₆) (m : Manager σ₄ σ₆) (e : Event) (f : Family) :
    (m.notify l e).tracker f =
      if f = e.family then
        match Agent.eventAddress? e with
        | none => m.tracker f
        | some address => Agent.eventChange e address (m.tracker f)
      else m.tracker f := by
  unfold notify onAgent
  cases he : e.family <;> cases f <;>
    first | exact Agent.tracker_notify _ _ e | rfl

/-- The property that an entry describes, with its address as it is read. -/
def propertyOf (key : Key) (e : Entry) (c : Cidr) (up : Bool) : Property :=
  ⟨key.index, e.name, some c.address, c.prefixLen, up⟩

/-- What a change means for the table that it concerns. -/
def tableChange (key : Key) (e : Entry) (c : Cidr) (change : Change) (t : PropertyTable) :
    PropertyTable :=
  match change with
  | .created up => (t.upsert (propertyOf key e c up)).2
  | .deleted => (t.remove key.index).2
  | .stateChanged up => (t.setUp key.index up).2

/-- The address of an event about a placed entry is taken as it is read. -/
theorem eventAddress?_event {key : Key} {e : Entry} {c : Cidr} (change : Change)
    (hc : Cidr.parse? e.address = some c) (hplace : placeOf c.address = (key.family, key.kind)) :
    Agent.eventAddress? (Snapshot.event key e change) = some (some c) := by
  obtain ⟨a, n⟩ := c
  cases a with
  | v4 a =>
    have hf : key.family = .v4 := (congrArg Prod.fst hplace).symm
    simp [Agent.eventAddress?, Snapshot.event, hc, hf]
  | v6 a =>
    have hf : key.family = .v6 := (congrArg Prod.fst hplace).symm
    simp [Agent.eventAddress?, Snapshot.event, hc, hf]

/-- An event about a placed entry changes the table of the entry's family and kind, and no other
one. -/
theorem table_notify (l : Lifecycles σ₄ σ₆) (m : Manager σ₄ σ₆) {key : Key} {e : Entry} {c : Cidr}
    (change : Change) (hc : Cidr.parse? e.address = some c)
    (hplace : placeOf c.address = (key.family, key.kind)) (f : Family) (k : Kind) :
    (m.notify l (Snapshot.event key e change)).table f k =
      if f = key.family ∧ k = key.kind then tableChange key e c change (m.table f k)
      else m.table f k := by
  have hreach := Tracker.reach_of_placeOf hplace
  rw [table, tracker_notify, eventAddress?_event change hc hplace]
  by_cases hf : f = key.family
  · rw [if_pos (show f = (Snapshot.event key e change).family from hf)]
    have htable : (Agent.eventChange (Snapshot.event key e change) (some c) (m.tracker f)).table k =
        if k = key.kind then tableChange key e c change ((m.tracker f).table key.kind)
        else (m.tracker f).table k := by
      cases change with
      | created up => exact Tracker.table_interfaceCreated _ hreach k
      | deleted => exact Tracker.table_interfaceDeleted _ hreach _ k
      | stateChanged up => exact Tracker.table_interfaceStateChanged _ hreach _ up k
    dsimp only
    rw [htable]
    by_cases hk : k = key.kind
    · rw [if_pos hk, if_pos ⟨hf, hk⟩, hk]
      rfl
    · rw [if_neg hk, if_neg fun h => hk h.2]
      rfl
  · rw [if_neg (show ¬ f = (Snapshot.event key e change).family from hf),
      if_neg fun h => hf h.1]
    rfl

end

end Manager

end DhcpRelay
