import Mathlib.Data.List.Nodup
import DhcpRelay.Proofs.Interface.PropertyTable

/-!
# Names and indices correspond one to one

Whatever is stored, removed and switched in a table, one operation after another, a name leads to an
index exactly when that index holds a property of that name, and there are as many names as
properties (`PropertyTable.run_consistent`, `PropertyTable.Consistent.size_byName`). One operation
changes what it is about and nothing else (`PropertyTable.Stores`, `PropertyTable.Removes`,
`PropertyTable.Switches`): a property that is stored may at once take the place of another name at
its index and its own name from another index, and both leave no trace.
-/

namespace DhcpRelay.Interface.PropertyTable

/-! ## Operations -/

/-- An operation on a table. -/
inductive Operation where
  | upsert (p : Property)
  | remove (index : Int)
  | setUp (index : Int) (up : Bool)
  deriving DecidableEq, Repr

/-- The table after an operation. -/
def apply (t : PropertyTable) : Operation → PropertyTable
  | .upsert p => (t.upsert p).2
  | .remove index => (t.remove index).2
  | .setUp index up => (t.setUp index up).2

/-- The table after operations on an empty one, first to last. -/
def run (os : List Operation) : PropertyTable := os.foldl apply {}

/-! ## What one operation changes -/

/-- A property is stored: it stands under its index and its name leads there. Another index that
held the name is the answer and holds nothing any more. The old name of the index leads nowhere.
Every other index and every other name is as before. -/
structure Stores (t : PropertyTable) (p : Property) (result : Option Int × PropertyTable) :
    Prop where
  get?_index : result.2.get? p.index = some p
  index?_name : result.2.index? p.name = some p.index
  answer_iff (j : Int) :
    result.1 = some j ↔ j ≠ p.index ∧ ∃ q, t.get? j = some q ∧ q.name = p.name
  get?_evicted (j : Int) (h : result.1 = some j) : result.2.get? j = none
  get?_other (i : Int) (hi : i ≠ p.index) (hkept : result.1 ≠ some i) :
    result.2.get? i = t.get? i
  index?_replaced (q : Property) (hq : t.get? p.index = some q) (hn : q.name ≠ p.name) :
    result.2.index? q.name = none
  index?_other (name : String) (hn : name ≠ p.name)
    (hkept : ∀ q, t.get? p.index = some q → q.name ≠ name) : result.2.index? name = t.index? name

/-- The property of an index is removed: it is the answer, the index holds nothing, and the
property's name leads nowhere. Every other index and every other name is as before. -/
structure Removes (t : PropertyTable) (index : Int) (result : Option Property × PropertyTable) :
    Prop where
  answer_eq : result.1 = t.get? index
  get?_index : result.2.get? index = none
  get?_other (i : Int) (hi : i ≠ index) : result.2.get? i = t.get? i
  index?_name (p : Property) (hp : t.get? index = some p) : result.2.index? p.name = none
  index?_other (name : String) (hkept : ∀ p, t.get? index = some p → p.name ≠ name) :
    result.2.index? name = t.index? name

/-- The interface of an index is recorded as up or down: the answer is whether the index holds a
property, which changes in that alone. Every other index and every name is as before. -/
structure Switches (t : PropertyTable) (index : Int) (up : Bool) (result : Bool × PropertyTable) :
    Prop where
  answer_iff : result.1 = true ↔ ∃ p, t.get? index = some p
  get?_index : result.2.get? index = (t.get? index).map ({ · with up })
  get?_other (i : Int) (hi : i ≠ index) : result.2.get? i = t.get? i
  index?_eq (name : String) : result.2.index? name = t.index? name

section
variable {t : PropertyTable}

/-- Of a consistent table, `upsert` stores a property. -/
theorem Consistent.stores (h : t.Consistent) (p : Property) : Stores t p (t.upsert p) where
  get?_index := by rw [get?_upsert, if_pos rfl]
  index?_name := by rw [index?_upsert, if_pos rfl]
  answer_iff j := by
    rw [upsert_fst, Option.filter_eq_some_iff, h.index?_eq_some_iff, and_comm]
    simp
  get?_evicted j hj := by
    rw [upsert_fst, Option.filter_eq_some_iff] at hj
    rw [get?_upsert, if_neg (by simpa using hj.2), if_pos hj.1]
  get?_other i hi hkept := by
    rw [get?_upsert, if_neg hi, if_neg]
    intro hheld
    rw [upsert_fst, hheld, Option.filter_some_pos (by simpa using hi)] at hkept
    exact hkept rfl
  index?_replaced q hq hn := by
    rw [index?_upsert, if_neg hn, hq, if_pos (Option.map_some ..)]
  index?_other name hn hkept := by
    rw [index?_upsert, if_neg hn, if_neg]
    intro hold
    obtain ⟨q, hq, hqn⟩ := Option.map_eq_some_iff.1 hold
    exact hkept q hq hqn

/-- `remove` removes a property. -/
theorem removes (t : PropertyTable) (index : Int) : Removes t index (t.remove index) where
  answer_eq := by
    unfold remove get?
    cases t.byIndex.get? index <;> rfl
  get?_index := by rw [get?_remove, if_pos rfl]
  get?_other i hi := by rw [get?_remove, if_neg hi]
  index?_name p hp := by rw [index?_remove, hp, if_pos (Option.map_some ..)]
  index?_other name hkept := by
    rw [index?_remove, if_neg]
    intro hold
    obtain ⟨p, hp, hpn⟩ := Option.map_eq_some_iff.1 hold
    exact hkept p hp hpn

/-- `setUp` records the state of an interface. -/
theorem switches (t : PropertyTable) (index : Int) (up : Bool) :
    Switches t index up (t.setUp index up) where
  answer_iff := by
    unfold setUp get?
    cases t.byIndex.get? index <;> simp
  get?_index := by rw [get?_setUp, if_pos rfl]
  get?_other i hi := by rw [get?_setUp, if_neg hi]
  index?_eq name := index?_setUp t index up name

/-! ## Runs -/

/-- Every operation keeps the two ways in agreement. -/
theorem Consistent.apply (h : t.Consistent) (o : Operation) : (t.apply o).Consistent := by
  cases o with
  | upsert p => exact h.upsert p
  | remove index => exact h.remove index
  | setUp index up => exact h.setUp index up

/-- The two ways agree after any operations. -/
theorem run_consistent (os : List Operation) : (run os).Consistent := by
  have hfold : ∀ t : PropertyTable, t.Consistent →
      (os.foldl PropertyTable.apply t).Consistent := by
    induction os with
    | nil => exact fun t h => h
    | cons o os ih => exact fun t h => ih (t.apply o) (h.apply o)
  exact hfold {} .empty

/-- The names of the properties, in the order of their indices. -/
def names (t : PropertyTable) : List String := t.byIndex.entries.map (·.2.name)

/-- No two properties of a consistent table share a name. -/
theorem Consistent.nodup_names (h : t.Consistent) : t.names.Nodup := by
  refine List.Nodup.map_on ?_ (List.Nodup.of_map _ t.byIndex.keys_nodup)
  rintro ⟨i, p⟩ hp ⟨j, q⟩ hq hname
  have hp : t.get? i = some p := SortedTable.get?_eq_some_iff.2 hp
  have hq : t.get? j = some q := SortedTable.get?_eq_some_iff.2 hq
  obtain rfl := h.index_unique hp hq hname
  exact congrArg (i, ·) (Option.some.inj (hp.symm.trans hq))

/-- The names that lead somewhere in a consistent table are those of its properties. -/
theorem Consistent.mem_names_iff (h : t.Consistent) {name : String} :
    name ∈ t.byName.keys ↔ name ∈ t.names := by
  rw [SortedTable.mem_keys_iff, names, List.mem_map]
  constructor
  · rintro ⟨i, hi⟩
    obtain ⟨p, hp, hname⟩ := h.index?_eq_some_iff.1 hi
    exact ⟨(i, p), SortedTable.get?_eq_some_iff.1 hp, hname⟩
  · rintro ⟨⟨i, p⟩, hp, rfl⟩
    exact ⟨i, h.index?_name (SortedTable.get?_eq_some_iff.2 hp)⟩

/-- A consistent table has as many names as properties. -/
theorem Consistent.size_byName (h : t.Consistent) : t.byName.size = t.byIndex.size := by
  have hperm : t.byName.keys.Perm t.names :=
    (List.perm_ext_iff_of_nodup t.byName.keys_nodup h.nodup_names).2 fun _ => h.mem_names_iff
  calc
    t.byName.size = t.byName.keys.length := (List.length_map _).symm
    _ = t.names.length := hperm.length_eq
    _ = t.byIndex.size := List.length_map _

/-- After any operations on an empty table, a name leads to an index exactly when that index holds a
property of that name, properties stand under their own index, and there are as many names as
properties; and of such a table every operation changes what it is about and nothing else. -/
theorem names_and_indices_correspond (os : List Operation) :
    let t := run os
    (∀ name index, t.index? name = some index ↔
      ∃ p, t.get? index = some p ∧ p.name = name) ∧
    (∀ index p, t.get? index = some p → p.index = index) ∧
    t.byName.size = t.byIndex.size ∧
    (∀ p, Stores t p (t.upsert p)) ∧
    (∀ index, Removes t index (t.remove index)) ∧
    ∀ index up, Switches t index up (t.setUp index up) := by
  intro t
  have h : t.Consistent := run_consistent os
  exact ⟨fun _ _ => h.index?_eq_some_iff, h.index_eq, h.size_byName, h.stores, t.removes,
    t.switches⟩

/-- A property takes its name from one index and drops the old name of its own. -/
example :
    let link (index : Int) (name : String) : Property :=
      { index, name, address := none, prefixLen := 0, up := true }
    let t := run [.upsert (link 1 "eth0"), .upsert (link 2 "eth1"), .upsert (link 2 "eth0")]
    ((run [.upsert (link 1 "eth0"), .upsert (link 2 "eth1")]).upsert (link 2 "eth0")).1 = some 1 ∧
      t.get? 1 = none ∧ t.index? "eth1" = none ∧ t.index? "eth0" = some 2 := by
  decide

end

end DhcpRelay.Interface.PropertyTable
