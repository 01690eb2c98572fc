import Mathlib.Algebra.GroupWithZero.Nat
import Mathlib.Data.List.Basic
import DhcpRelay.SortedTable

/-!
# Keys of sorted tables

What the operations of a `SortedTable` do to its keys. Keys stand in increasing order, each once,
so two tables with the same keys list them alike even if their values are of different types
(`SortedTable.keys_ext`): this is how the indices that a processor holds are compared with the
active ones.

`get?_insert_eq` and `get?_erase_eq` say what `get?_insert` and `get?_erase` say, with the keys
compared by equality.

A number that is read off every value sums up to a total (`SortedTable.total`). Changing one value
changes the total by what it changes the number (`SortedTable.total_upsert`).
-/

namespace DhcpRelay

open Std

namespace SortedTable

section
variable {κ ν μ : Type} [Ord κ] [TransOrd κ] [LawfulEqOrd κ]

/-! ## Values -/

/-- An inserted key has the new value; every other key is as before. -/
theorem get?_insert_eq [DecidableEq κ] (t : SortedTable κ ν) (k k' : κ) (v : ν) :
    (t.insert k v).get? k' = if k' = k then some v else t.get? k' := by
  rw [get?_insert]
  simp only [LawfulEqCmp.compare_eq_iff_eq]

omit [TransOrd κ] in
/-- An erased key has no value; every other key is as before. -/
theorem get?_erase_eq [DecidableEq κ] (t : SortedTable κ ν) (k k' : κ) :
    (t.erase k).get? k' = if k' = k then none else t.get? k' := by
  rw [get?_erase]
  simp only [LawfulEqCmp.compare_eq_iff_eq, eq_comm (a := k)]

/-- A value that is inserted again is there already. -/
theorem insert_insert [DecidableEq κ] (t : SortedTable κ ν) (k : κ) (v : ν) :
    (t.insert k v).insert k v = t.insert k v := by
  refine ext_get? fun k' => ?_
  rw [get?_insert_eq, get?_insert_eq]
  split <;> rfl

/-- A key that is erased again has no value already. -/
theorem erase_erase [DecidableEq κ] (t : SortedTable κ ν) (k : κ) :
    (t.erase k).erase k = t.erase k := by
  refine ext_get? fun k' => ?_
  rw [get?_erase_eq, get?_erase_eq]
  split <;> rfl

/-! ## Keys -/

omit [TransOrd κ] in
/-- A key is listed exactly when it has a value. -/
theorem mem_keys_iff {t : SortedTable κ ν} {k : κ} : k ∈ t.keys ↔ ∃ v, t.get? k = some v := by
  simp only [keys, List.mem_map, get?_eq_some_iff]
  constructor
  · rintro ⟨⟨_, v⟩, hm, rfl⟩
    exact ⟨v, hm⟩
  · rintro ⟨v, hm⟩
    exact ⟨(k, v), hm, rfl⟩

omit [TransOrd κ] in
/-- A key has no value exactly when it is not listed. -/
theorem get?_eq_none_iff {t : SortedTable κ ν} {k : κ} : t.get? k = none ↔ k ∉ t.keys := by
  rw [mem_keys_iff, Option.eq_none_iff_forall_ne_some, not_exists]

omit [TransOrd κ] in
/-- A key is contained exactly when it is listed. -/
theorem contains_iff_mem_keys {t : SortedTable κ ν} {k : κ} :
    t.contains k = true ↔ k ∈ t.keys := by
  rw [contains, Option.isSome_iff_exists, mem_keys_iff]

@[simp] theorem mem_keys_insert {t : SortedTable κ ν} {k k' : κ} {v : ν} :
    k' ∈ (t.insert k v).keys ↔ k' = k ∨ k' ∈ t.keys := by
  rw [mem_keys_iff, mem_keys_iff]
  by_cases h : k' = k
  · subst h; simp
  · simp [get?_insert_of_ne t v h, h]

omit [TransOrd κ] in
@[simp] theorem mem_keys_filterKeys {t : SortedTable κ ν} {p : κ → Bool} {k : κ} :
    k ∈ (t.filterKeys p).keys ↔ p k = true ∧ k ∈ t.keys := by
  rw [mem_keys_iff, mem_keys_iff, get?_filterKeys]
  by_cases h : p k = true <;> simp [h]

omit [TransOrd κ] in
@[simp] theorem mem_keys_erase {t : SortedTable κ ν} {k k' : κ} :
    k' ∈ (t.erase k).keys ↔ k' ≠ k ∧ k' ∈ t.keys := by
  rw [erase, mem_keys_filterKeys, bne_iff_ne, ne_eq, LawfulEqCmp.compare_eq_iff_eq, eq_comm]

omit [TransOrd κ] [LawfulEqOrd κ] in
@[simp] theorem keys_empty : (∅ : SortedTable κ ν).keys = [] := rfl

omit [TransOrd κ] [LawfulEqOrd κ] in
/-- The keys stand in increasing order. -/
theorem keys_sorted (t : SortedTable κ ν) : t.keys.Pairwise (fun a b => compare a b = .lt) :=
  List.pairwise_map.2 t.sorted

omit [TransOrd κ] in
/-- No key is listed twice. -/
theorem keys_nodup (t : SortedTable κ ν) : t.keys.Nodup :=
  t.keys_sorted.imp fun h he => by subst he; simp at h

omit [TransOrd κ] in
/-- The values are those that stand under the keys, in the order of the keys. -/
theorem map_get?_keys (t : SortedTable κ ν) : t.keys.map t.get? = t.values.map some := by
  rw [keys, values, List.map_map, List.map_map]
  exact List.map_congr_left fun e he => get?_eq_some_iff.2 he

/-- Tables with the same keys list them alike. -/
theorem keys_ext {t : SortedTable κ ν} {u : SortedTable κ μ} (h : ∀ k, k ∈ t.keys ↔ k ∈ u.keys) :
    t.keys = u.keys := by
  have hunit : t.keys.map (·, ()) = u.keys.map (·, ()) :=
    entries_ext (List.pairwise_map.2 t.keys_sorted) (List.pairwise_map.2 u.keys_sorted) fun e => by
      simp [h]
  have hfst := congrArg (List.map Prod.fst) hunit
  simpa [List.map_map, Function.comp_def] using hfst

/-- A table without values is determined by its keys. -/
theorem ext_keys {t u : SortedTable κ Unit} (h : t.keys = u.keys) : t = u := by
  refine ext_get? fun k => Option.ext fun v => ?_
  have hk : (∃ v, t.get? k = some v) ↔ ∃ v, u.get? k = some v := by
    rw [← mem_keys_iff, ← mem_keys_iff, h]
  exact ⟨fun ht => (hk.1 ⟨v, ht⟩).elim fun _ hu => hu, fun hu => (hk.2 ⟨v, hu⟩).elim fun _ ht => ht⟩

/-! ## Entries -/

omit [TransOrd κ] in
/-- The entry of a key stands once among the entries, if the key has a value. -/
theorem filter_entries_key [DecidableEq κ] (t : SortedTable κ ν) (k : κ) :
    t.entries.filter (·.1 = k) = ((t.get? k).map (k, ·)).toList := by
  obtain ⟨es, hes⟩ := t
  show es.filter (·.1 = k) = ((lookupEntry k es).map (k, ·)).toList
  induction es with
  | nil => rfl
  | cons e es ih =>
    obtain ⟨hhead, htail⟩ := List.pairwise_cons.1 hes
    by_cases hk : e.1 = k
    · -- the other entries have later keys
      have hnone : es.filter (·.1 = k) = [] := by
        refine List.filter_eq_nil_iff.2 fun x hx hxk => ?_
        have hlt := hhead x hx
        rw [hk, of_decide_eq_true hxk] at hlt
        simp at hlt
      rw [List.filter_cons_of_pos (by simpa using hk), hnone, lookupEntry,
        if_pos (by simp [hk])]
      subst hk
      rfl
    · rw [List.filter_cons_of_neg (by simpa using hk), ih htail, lookupEntry,
        if_neg (mt LawfulEqCmp.eq_of_compare (Ne.symm hk))]

omit [TransOrd κ] in
/-- If what a function makes of an entry tells the entry's key, then what tells a key is what it
makes of the entry of that key. -/
theorem filter_filterMap_entries [DecidableEq κ] {β : Type} (t : SortedTable κ ν)
    {f : κ × ν → Option β} {p : β → Bool} {k : κ}
    (hp : ∀ e ∈ t.entries, ∀ b, f e = some b → (p b = true ↔ e.1 = k)) :
    (t.entries.filterMap f).filter p = ((t.get? k).bind fun v => f (k, v)).toList := by
  have hfilter : (t.entries.filterMap f).filter p = (t.entries.filter (·.1 = k)).filterMap f := by
    rw [List.filter_filterMap, List.filterMap_filter]
    refine List.filterMap_congr fun e he => ?_
    cases hf : f e with
    | none => simp
    | some b =>
      by_cases hk : e.1 = k
      · simp [hk, (hp e he b hf).2 hk]
      · simp [hk, Bool.eq_false_iff.2 (mt (hp e he b hf).1 hk)]
  rw [hfilter, filter_entries_key]
  cases t.get? k with
  | none => rfl
  | some v => cases hf : f (k, v) <;> simp [hf]

/-! ## Totals -/

/-- The sum of a number over all values. -/
def total (t : SortedTable κ ν) (f : ν → Nat) : Nat := (t.values.map f).sum

/-- Inserting an entry adds its number to the sum over sorted entries and takes off that of the
entry it replaces. -/
theorem sum_insertEntry (k : κ) (v : ν) (f : ν → Nat) :
    ∀ {l : List (κ × ν)}, l.Pairwise (fun a b => compare a.1 b.1 = .lt) →
      ((insertEntry k v l).map fun e => f e.2).sum + ((lookupEntry k l).map f).getD 0 =
        (l.map fun e => f e.2).sum + f v
  | [], _ => by simp [insertEntry, lookupEntry]
  | (j, w) :: rest, h => by
    have hrest := List.pairwise_cons.1 h
    unfold insertEntry lookupEntry
    split
    · next hlt =>
      -- the key comes before all others, so nothing is replaced
      have hnone : lookupEntry k rest = none := by
        rw [Option.eq_none_iff_forall_ne_some]
        intro u hu
        have hm := (lookupEntry_eq_some_iff hrest.2).1 hu
        have hself := TransCmp.lt_trans hlt (hrest.1 _ hm)
        simp at hself
      simp only [List.map_cons, List.sum_cons, hlt, hnone, reduceCtorEq, if_false,
        Option.map_none, Option.getD_none]
      omega
    · next heq =>
      simp only [List.map_cons, List.sum_cons, heq, if_true, Option.map_some,
        Option.getD_some]
      omega
    · next hgt =>
      have ih := sum_insertEntry k v f hrest.2
      simp only [List.map_cons, List.sum_cons, hgt, reduceCtorEq, if_false]
      omega

/-- Inserting a value adds its number to the total and takes off that of the value it replaces. -/
theorem total_insert (t : SortedTable κ ν) (k : κ) (v : ν) (f : ν → Nat) :
    (t.insert k v).total f + ((t.get? k).map f).getD 0 = t.total f + f v := by
  simp only [total, values, List.map_map]
  exact sum_insertEntry k v f t.sorted

/-- Changing the value of a key, where a missing one counts nothing, changes the total by what it
changes the number of that value. -/
theorem total_upsert {t : SortedTable κ ν} {k : κ} {fresh : ν} {g : ν → ν} {f : ν → Nat} {d : Nat}
    (hfresh : f fresh = 0)
    (hg : f (g ((t.get? k).getD fresh)) = f ((t.get? k).getD fresh) + d) :
    (t.upsert k fresh g).total f = t.total f + d := by
  have h := total_insert t k (g ((t.get? k).getD fresh)) f
  have hold : ((t.get? k).map f).getD 0 = f ((t.get? k).getD fresh) := by
    cases t.get? k with
    | none => exact hfresh.symm
    | some v => rfl
  rw [hg, hold] at h
  rw [upsert]
  omega

/-- A changed key has the changed value; every other key is as before. -/
theorem get?_upsert [DecidableEq κ] (t : SortedTable κ ν) (k k' : κ) (fresh : ν) (g : ν → ν) :
    (t.upsert k fresh g).get? k' =
      if k' = k then some (g ((t.get? k).getD fresh)) else t.get? k' :=
  get?_insert_eq t k k' _

end

end SortedTable

end DhcpRelay
