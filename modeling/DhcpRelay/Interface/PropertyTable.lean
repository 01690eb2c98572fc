import DhcpRelay.Interface.Property
import DhcpRelay.SortedTable

/-!
# Tables of interface properties

A table finds a property by the interface's index and by its name. The two ways are two maps, and
every operation changes both together: a name leads to an index exactly when that index holds a
property of that name (`PropertyTable.Consistent`). Names are unique, so a name that arrives at a
new index takes the property of the old index away.
-/

namespace DhcpRelay.Interface

/-- Properties by index, and indices by name. -/
structure PropertyTable where
  byIndex : SortedTable Int Property := ∅
  byName : SortedTable String Int := ∅
  deriving DecidableEq

namespace PropertyTable

/-- A name leads to an index exactly when that index holds a property of that name, and a property
stands under its own index. -/
structure Consistent (t : PropertyTable) : Prop where
  /-- Names lead to properties of that name, and every property is led to by its name. -/
  byName_eq_some_iff : ∀ name index,
    t.byName.get? name = some index ↔ ∃ p, t.byIndex.get? index = some p ∧ p.name = name
  /-- Properties stand under their own index. -/
  index_eq : ∀ index p, t.byIndex.get? index = some p → p.index = index

/-- The property of an index. -/
def get? (t : PropertyTable) (index : Int) : Option Property := t.byIndex.get? index

/-- The index of a name. -/
def index? (t : PropertyTable) (name : String) : Option Int := t.byName.get? name

/-- The property of a name. -/
def find? (t : PropertyTable) (name : String) : Option Property := t.index? name >>= t.get?

/-- The indices that hold a property, in increasing order. -/
def indices (t : PropertyTable) : List Int := t.byIndex.keys

/-- The number of properties. -/
def size (t : PropertyTable) : Nat := t.byIndex.size

/-- Whether there is no property. -/
def isEmpty (t : PropertyTable) : Bool := t.byIndex.isEmpty

/-- Stores a property under its index. The answer is the index that held the name before, if that
was another one; it holds no property any more. -/
def upsert (t : PropertyTable) (p : Property) : Option Int × PropertyTable :=
  let byName := match t.byIndex.get? p.index with
    | some old => if old.name = p.name then t.byName else t.byName.erase old.name
    | none => t.byName
  let evicted := (byName.get? p.name).filter (· ≠ p.index)
  let byIndex := match evicted with
    | some other => t.byIndex.erase other
    | none => t.byIndex
  (evicted, ⟨byIndex.insert p.index p, byName.insert p.name p.index⟩)

/-- Removes the property of an index. -/
def remove (t : PropertyTable) (index : Int) : Option Property × PropertyTable :=
  match t.byIndex.get? index with
  | some p => (some p, ⟨t.byIndex.erase index, t.byName.erase p.name⟩)
  | none => (none, t)

/-- Records whether the interface of an index is up. The answer says whether the index is known. -/
def setUp (t : PropertyTable) (index : Int) (up : Bool) : Bool × PropertyTable :=
  match t.byIndex.get? index with
  | some p => (true, { t with byIndex := t.byIndex.insert index { p with up } })
  | none => (false, t)

end PropertyTable

end DhcpRelay.Interface
