import DhcpRelay.Interface.PropertyTable
import DhcpRelay.Proofs.SortedTable

/-!
# The two ways into a table of interface properties

What `upsert`, `remove` and `setUp` do to the property of an index and to the index of a name, and
that each of them keeps the two ways in agreement (`PropertyTable.Consistent`).

An agreeing table is determined by the properties of its indices: a name leads to the one index
that holds a property of that name (`Consistent.index?_eq_some_iff`), and no two indices hold the
same name (`Consistent.index_unique`).

Each of the three operations leaves nothing to do for its repetition (`PropertyTable.upsert_upsert`,
`PropertyTable.remove_remove`, `PropertyTable.setUp_setUp`), whether or not the ways agree.
-/

namespace DhcpRelay.Interface

namespace PropertyTable

section
variable {t : PropertyTable}

/-! ## Agreement of the two ways -/

/-- The table without properties is consistent. -/
theorem Consistent.empty : Consistent {} where
  byName_eq_some_iff _ _ := by simp
  index_eq _ _ h := by simp at h

/-- A name leads to the index that holds a property of that name. -/
theorem Consistent.index?_eq_some_iff (h : t.Consistent) {name : String} {index : Int} :
    t.index? name = some index ↔ ∃ p, t.get? index = some p ∧ p.name = name :=
  h.byName_eq_some_iff name index

/-- The name of a stored property leads to its index. -/
theorem Consistent.index?_name (h : t.Consistent) {index : Int} {p : Property}
    (hp : t.get? index = some p) : t.index? p.name = some index :=
  h.index?_eq_some_iff.2 ⟨p, hp, rfl⟩

/-- Two indices do not hold the same name. -/
theorem Consistent.index_unique (h : t.Consistent) {i j : Int} {p q : Property}
    (hp : t.get? i = some p) (hq : t.get? j = some q) (hn : p.name = q.name) : i = j := by
  have hi := h.index?_name hp
  rw [hn, h.index?_name hq] at hi
  exact (Option.some.inj hi).symm

/-- A name leads nowhere exactly when no property has it. -/
theorem Consistent.index?_eq_none_iff (h : t.Consistent) {name : String} :
    t.index? name = none ↔ ∀ index p, t.get? index = some p → p.name ≠ name := by
  rw [Option.eq_none_iff_forall_ne_some]
  constructor
  · intro hnone index p hp hn
    exact hnone index (h.index?_eq_some_iff.2 ⟨p, hp, hn⟩)
  · intro hall index hi
    obtain ⟨p, hp, hn⟩ := h.index?_eq_some_iff.1 hi
    exact hall index p hp hn

/-! ## Storing a property -/

/-- The name map of an `upsert` before the new name is stored: the old name of the index is gone
from it. -/
def clearedNames (t : PropertyTable) (p : Property) : SortedTable String Int :=
  match t.byIndex.get? p.index with
  | some old => if old.name = p.name then t.byName else t.byName.erase old.name
  | none => t.byName

/-- The index map of an `upsert` before the property is stored: the evicted index is gone from
it. -/
def clearedIndices (t : PropertyTable) : Option Int → SortedTable Int Property
  | some other => t.byIndex.erase other
  | none => t.byIndex

/-- An `upsert` in terms of the two cleared maps. -/
theorem upsert_eq (t : PropertyTable) (p : Property) :
    t.upsert p =
      let evicted := ((t.clearedNames p).get? p.name).filter (· ≠ p.index)
      (evicted, ⟨(t.clearedIndices evicted).insert p.index p,
        (t.clearedNames p).insert p.name p.index⟩) := rfl

/-- The old name of the index leads nowhere in the cleared name map, unless it is the new one. -/
theorem get?_clearedNames (t : PropertyTable) (p : Property) (name : String) :
    (t.clearedNames p).get? name =
      if name ≠ p.name ∧ (t.get? p.index).map (·.name) = some name then none
      else t.index? name := by
  unfold clearedNames get? index?
  cases t.byIndex.get? p.index with
  | none => simp
  | some old =>
    by_cases ho : old.name = p.name
    · have hne : ¬ (name ≠ p.name ∧ p.name = name) := fun hc => hc.1 hc.2.symm
      simp [ho, hne]
    · simp only [ho, if_false, SortedTable.get?_erase_eq]
      by_cases hn : name = old.name
      · subst hn; simp [ho]
      · have hn' : ¬ old.name = name := fun h => hn h.symm
        simp [hn, hn']

/-- The evicted index holds nothing in the cleared index map; every other one is as before. -/
theorem get?_clearedIndices (t : PropertyTable) (evicted : Option Int) (i : Int) :
    (t.clearedIndices evicted).get? i = if evicted = some i then none else t.get? i := by
  cases evicted with
  | none => simp [clearedIndices, get?]
  | some j => simp [clearedIndices, get?, SortedTable.get?_erase_eq, eq_comm]

/-- The index that loses its property: the one that held the name, if it was another one. -/
theorem upsert_fst (t : PropertyTable) (p : Property) :
    (t.upsert p).1 = (t.index? p.name).filter (· ≠ p.index) := by
  simp [upsert_eq, get?_clearedNames]

/-- A stored property stands under its index, the index that held its name holds nothing, and every
other index is as before. -/
theorem get?_upsert (t : PropertyTable) (p : Property) (i : Int) :
    (t.upsert p).2.get? i =
      if i = p.index then some p else if t.index? p.name = some i then none else t.get? i := by
  have hsnd : (t.upsert p).2.get? i =
      ((t.clearedIndices (t.upsert p).1).insert p.index p).get? i := rfl
  rw [hsnd, upsert_fst, SortedTable.get?_insert_eq, get?_clearedIndices]
  by_cases hi : i = p.index
  · simp [hi]
  · simp [hi, Option.filter_eq_some_iff]

/-- A stored property's name leads to its index, the old name of the index leads nowhere, and every
other name is as before. -/
theorem index?_upsert (t : PropertyTable) (p : Property) (name : String) :
    (t.upsert p).2.index? name =
      if name = p.name then some p.index
      else if (t.get? p.index).map (·.name) = some name then none else t.index? name := by
  have hsnd : (t.upsert p).2.index? name =
      ((t.clearedNames p).insert p.name p.index).get? name := rfl
  rw [hsnd, SortedTable.get?_insert_eq, get?_clearedNames]
  by_cases hn : name = p.name
  · simp [hn]
  · simp [hn]

/-- `upsert` keeps the two ways in agreement. -/
theorem Consistent.upsert (h : t.Consistent) (p : Property) : (t.upsert p).2.Consistent where
  byName_eq_some_iff name index := by
    show (t.upsert p).2.index? name = some index ↔
      ∃ q, (t.upsert p).2.get? index = some q ∧ q.name = name
    rw [index?_upsert, get?_upsert]
    by_cases hi : index = p.index
    · subst hi
      by_cases hn : name = p.name
      · simp [hn]
      · have hn' : ¬ p.name = name := fun h => hn h.symm
        rw [if_neg hn, if_pos rfl]
        -- the old name of the index leads nowhere, and no other name led to it
        have hnot : ¬ ((if (t.get? p.index).map (·.name) = some name then none
            else t.index? name) = some p.index) := by
          split
          · simp
          · next hold =>
            intro hs
            obtain ⟨q, hq, hqn⟩ := h.index?_eq_some_iff.1 hs
            exact hold (by simp [hq, hqn])
        refine iff_of_false hnot ?_
        rintro ⟨q, hq, hqn⟩
        exact hn' (Option.some.inj hq ▸ hqn)
    · rw [if_neg hi]
      by_cases hn : name = p.name
      · subst hn
        have hi' : ¬ p.index = index := fun h => hi h.symm
        rw [if_pos rfl]
        constructor
        · intro hs; exact absurd (Option.some.inj hs) hi'
        · rintro ⟨q, hq, hqn⟩
          split at hq
          · cases hq
          · next hne => exact absurd (h.index?_eq_some_iff.2 ⟨q, hq, hqn⟩) hne
      · rw [if_neg hn]
        constructor
        · intro hs
          split at hs
          · cases hs
          · obtain ⟨q, hq, hqn⟩ := h.index?_eq_some_iff.1 hs
            refine ⟨q, ?_, hqn⟩
            rw [if_neg, hq]
            intro hp
            obtain ⟨q', hq', hqn'⟩ := h.index?_eq_some_iff.1 hp
            rw [hq] at hq'
            exact hn (hqn ▸ Option.some.inj hq' ▸ hqn')
        · rintro ⟨q, hq, hqn⟩
          split at hq
          · cases hq
          · rw [if_neg, h.index?_eq_some_iff.2 ⟨q, hq, hqn⟩]
            intro hold
            obtain ⟨o, ho, hon⟩ := Option.map_eq_some_iff.1 hold
            exact hi (h.index_unique hq ho (hqn.trans hon.symm))
  index_eq index q hq := by
    have hq : (t.upsert p).2.get? index = some q := hq
    rw [get?_upsert] at hq
    split at hq
    · next hi => cases hq; exact hi.symm
    · split at hq
      · cases hq
      · exact h.index_eq index q hq

/-! ## Removing a property -/

/-- A removed index holds nothing; every other one is as before. -/
theorem get?_remove (t : PropertyTable) (index i : Int) :
    (t.remove index).2.get? i = if i = index then none else t.get? i := by
  unfold remove get?
  cases hp : t.byIndex.get? index with
  | none =>
    by_cases hi : i = index
    · simp [hi, hp]
    · simp [hi]
  | some p => simp [SortedTable.get?_erase_eq]

/-- The name of a removed property leads nowhere; every other name is as before. -/
theorem index?_remove (t : PropertyTable) (index : Int) (name : String) :
    (t.remove index).2.index? name =
      if (t.get? index).map (·.name) = some name then none else t.index? name := by
  unfold remove get? index?
  cases hp : t.byIndex.get? index with
  | none => simp
  | some p => simp [SortedTable.get?_erase_eq, eq_comm]

/-- `remove` keeps the two ways in agreement. -/
theorem Consistent.remove (h : t.Consistent) (index : Int) : (t.remove index).2.Consistent where
  byName_eq_some_iff name i := by
    show (t.remove index).2.index? name = some i ↔
      ∃ q, (t.remove index).2.get? i = some q ∧ q.name = name
    rw [index?_remove, get?_remove]
    constructor
    · intro hs
      split at hs
      · cases hs
      · next hold =>
        obtain ⟨q, hq, hqn⟩ := h.index?_eq_some_iff.1 hs
        refine ⟨q, ?_, hqn⟩
        rw [if_neg, hq]
        rintro rfl
        exact hold (by simp [hq, hqn])
    · rintro ⟨q, hq, hqn⟩
      split at hq
      · cases hq
      · next hi =>
        rw [if_neg, h.index?_eq_some_iff.2 ⟨q, hq, hqn⟩]
        intro hold
        obtain ⟨o, ho, hon⟩ := Option.map_eq_some_iff.1 hold
        exact hi (h.index_unique hq ho (hqn.trans hon.symm))
  index_eq i q hq := by
    have hq : (t.remove index).2.get? i = some q := hq
    rw [get?_remove] at hq
    split at hq
    · cases hq
    · exact h.index_eq i q hq

/-! ## Recording the state of an interface -/

/-- The property of the index records the new state; every other one is as before. -/
theorem get?_setUp (t : PropertyTable) (index : Int) (up : Bool) (i : Int) :
    (t.setUp index up).2.get? i =
      if i = index then (t.get? index).map ({ · with up }) else t.get? i := by
  unfold setUp get?
  cases hp : t.byIndex.get? index with
  | none =>
    by_cases hi : i = index
    · simp [hi, hp]
    · simp [hi]
  | some p => simp [SortedTable.get?_insert_eq]

/-- Names lead where they led. -/
theorem index?_setUp (t : PropertyTable) (index : Int) (up : Bool) (name : String) :
    (t.setUp index up).2.index? name = t.index? name := by
  unfold setUp index?
  cases t.byIndex.get? index <;> rfl

/-- `setUp` keeps the two ways in agreement. -/
theorem Consistent.setUp (h : t.Consistent) (index : Int) (up : Bool) :
    (t.setUp index up).2.Consistent where
  byName_eq_some_iff name i := by
    show (t.setUp index up).2.index? name = some i ↔
      ∃ q, (t.setUp index up).2.get? i = some q ∧ q.name = name
    rw [index?_setUp, get?_setUp, h.index?_eq_some_iff]
    split
    · next hi =>
      subst hi
      cases t.get? i <;> simp
    · rfl
  index_eq i q hq := by
    have hq : (t.setUp index up).2.get? i = some q := hq
    rw [get?_setUp] at hq
    split at hq
    · next hi =>
      obtain ⟨p, hp, rfl⟩ := Option.map_eq_some_iff.1 hq
      rw [hi]
      exact h.index_eq index p hp
    · exact h.index_eq i q hq

/-! ## Repetition -/

/-- A table is determined by the properties of its indices and by where its names lead. -/
theorem ext {u : PropertyTable} (hget : ∀ i, t.get? i = u.get? i)
    (hindex : ∀ name, t.index? name = u.index? name) : t = u := by
  have hbyIndex : t.byIndex = u.byIndex := SortedTable.ext_get? hget
  have hbyName : t.byName = u.byName := SortedTable.ext_get? hindex
  cases t
  cases u
  simp only at hbyIndex hbyName
  subst hbyIndex hbyName
  rfl

/-- A property that is stored again evicts nothing and is where it was. -/
theorem upsert_upsert (t : PropertyTable) (p : Property) :
    ((t.upsert p).2.upsert p).2 = (t.upsert p).2 := by
  have hget : (t.upsert p).2.get? p.index = some p := by rw [get?_upsert, if_pos rfl]
  have hindex : (t.upsert p).2.index? p.name = some p.index := by rw [index?_upsert, if_pos rfl]
  refine ext (fun i => ?_) fun name => ?_
  · rw [get?_upsert, hindex]
    by_cases hi : i = p.index
    · rw [if_pos hi, hi, hget]
    · rw [if_neg hi, if_neg fun h => hi (Option.some.inj h).symm]
  · rw [index?_upsert, hget]
    by_cases hn : name = p.name
    · rw [if_pos hn, hn, hindex]
    · rw [if_neg hn, Option.map_some, if_neg fun h => hn (Option.some.inj h).symm]

/-- An index that is removed again holds nothing already. -/
theorem remove_remove (t : PropertyTable) (index : Int) :
    ((t.remove index).2.remove index).2 = (t.remove index).2 := by
  have hget : (t.remove index).2.get? index = none := by rw [get?_remove, if_pos rfl]
  refine ext (fun i => ?_) fun name => ?_
  · rw [get?_remove]
    by_cases hi : i = index
    · rw [if_pos hi, hi, hget]
    · rw [if_neg hi]
  · rw [index?_remove, hget, if_neg (by simp)]

/-- A state that is recorded again is the one that is recorded. -/
theorem setUp_setUp (t : PropertyTable) (index : Int) (up : Bool) :
    ((t.setUp index up).2.setUp index up).2 = (t.setUp index up).2 := by
  refine ext (fun i => ?_) fun name => ?_
  · rw [get?_setUp]
    by_cases hi : i = index
    · rw [if_pos hi, hi, get?_setUp, if_pos rfl, Option.map_map]
      rfl
    · rw [if_neg hi]
  · rw [index?_setUp]

end

end PropertyTable

end DhcpRelay.Interface
