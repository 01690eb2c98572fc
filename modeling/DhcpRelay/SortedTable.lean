/-!
# Tables sorted by key

A `SortedTable κ ν` is a finite map whose entries stand in strictly increasing order of their
keys. Sorting is part of the type, so a table is determined by what it answers: two tables with
the same `get?` are equal (`SortedTable.ext_get?`). Every record table of the relay agent is one
of these, and what a caller sees listed is always `entries`, in key order.

`get?_insert`, `get?_erase` and `get?_filterKeys` say what each operation does to `get?`.
-/

namespace DhcpRelay

open Std

/-- A finite map, its entries in strictly increasing order of their keys. -/
structure SortedTable (κ ν : Type) [Ord κ] where
  entries : List (κ × ν)
  /-- Each key comes before every later one. -/
  sorted : entries.Pairwise (fun a b => compare a.1 b.1 = .lt)
  deriving DecidableEq

namespace SortedTable

variable {κ ν : Type} [Ord κ]

/-! ## Entry lists -/

/-- The value of the first entry with key `k`. -/
def lookupEntry (k : κ) : List (κ × ν) → Option ν
  | [] => none
  | (k', v) :: rest => if compare k k' = .eq then some v else lookupEntry k rest

/-- Puts an entry in its place, replacing the one with an equal key. -/
def insertEntry (k : κ) (v : ν) : List (κ × ν) → List (κ × ν)
  | [] => [(k, v)]
  | (k', v') :: rest =>
    match compare k k' with
    | .lt => (k, v) :: (k', v') :: rest
    | .eq => (k, v) :: rest
    | .gt => (k', v') :: insertEntry k v rest

/-- An entry after an insertion is the new one or an old one. -/
theorem mem_insertEntry {k : κ} {v : ν} {e : κ × ν} :
    ∀ {l : List (κ × ν)}, e ∈ insertEntry k v l → e = (k, v) ∨ e ∈ l
  | [], h => by simp_all [insertEntry]
  | (k', v') :: rest, h => by
    unfold insertEntry at h
    split at h
    · simpa using h
    · rcases List.mem_cons.1 h with h | h
      · exact .inl h
      · exact .inr (List.mem_cons_of_mem _ h)
    · rcases List.mem_cons.1 h with h | h
      · exact .inr (h ▸ List.mem_cons_self)
      · exact (mem_insertEntry h).imp id (List.mem_cons_of_mem _)

/-- Insertion keeps entries sorted. -/
theorem sorted_insertEntry [TransOrd κ] [LawfulEqOrd κ] (k : κ) (v : ν) :
    ∀ {l : List (κ × ν)}, l.Pairwise (fun a b => compare a.1 b.1 = .lt) →
      (insertEntry k v l).Pairwise (fun a b => compare a.1 b.1 = .lt)
  | [], _ => by simp [insertEntry]
  | (k', v') :: rest, h => by
    have hrest := List.pairwise_cons.1 h
    unfold insertEntry
    split
    · next hlt =>
      refine List.pairwise_cons.2 ⟨fun e he => ?_, h⟩
      rcases List.mem_cons.1 he with rfl | he
      · exact hlt
      · exact TransCmp.lt_trans hlt (hrest.1 e he)
    · next heq =>
      obtain rfl := LawfulEqCmp.eq_of_compare heq
      exact List.pairwise_cons.2 hrest
    · next hgt =>
      refine List.pairwise_cons.2 ⟨fun e he => ?_, sorted_insertEntry k v hrest.2⟩
      rcases mem_insertEntry he with rfl | he
      · exact OrientedCmp.lt_of_gt hgt
      · exact hrest.1 e he

/-! ## Operations -/

/-- The table with no entry. -/
def empty : SortedTable κ ν := ⟨[], .nil⟩

instance : EmptyCollection (SortedTable κ ν) := ⟨empty⟩

instance : Inhabited (SortedTable κ ν) := ⟨empty⟩

/-- The value stored under `k`. -/
def get? (t : SortedTable κ ν) (k : κ) : Option ν := lookupEntry k t.entries

/-- Whether a value is stored under `k`. -/
def contains (t : SortedTable κ ν) (k : κ) : Bool := (t.get? k).isSome

/-- The number of entries. -/
def size (t : SortedTable κ ν) : Nat := t.entries.length

/-- Whether there is no entry. -/
def isEmpty (t : SortedTable κ ν) : Bool := t.entries.isEmpty

/-- The keys, in increasing order. -/
def keys (t : SortedTable κ ν) : List κ := t.entries.map (·.1)

/-- The values, in the order of their keys. -/
def values (t : SortedTable κ ν) : List ν := t.entries.map (·.2)

/-- Keeps the entries whose key satisfies `p`. -/
def filterKeys (t : SortedTable κ ν) (p : κ → Bool) : SortedTable κ ν :=
  ⟨t.entries.filter (fun e => p e.1), t.sorted.sublist List.filter_sublist⟩

/-- Removes the entry with key `k`, if there is one. -/
def erase (t : SortedTable κ ν) (k : κ) : SortedTable κ ν :=
  t.filterKeys (fun k' => compare k k' != .eq)

variable [TransOrd κ] [LawfulEqOrd κ]

/-- Stores `v` under `k`, replacing what was there. -/
def insert (t : SortedTable κ ν) (k : κ) (v : ν) : SortedTable κ ν :=
  ⟨insertEntry k v t.entries, sorted_insertEntry k v t.sorted⟩

/-- Changes the record under `k` by `f`; a record that is missing starts out as `fresh`. -/
def upsert (t : SortedTable κ ν) (k : κ) (fresh : ν) (f : ν → ν) : SortedTable κ ν :=
  t.insert k (f ((t.get? k).getD fresh))

/-- Changes the record under `k` by `f`, if there is one. -/
def modify (t : SortedTable κ ν) (k : κ) (f : ν → ν) : SortedTable κ ν :=
  match t.get? k with
  | some v => t.insert k (f v)
  | none => t

/-! ## What the operations do to `get?` -/

/-- Looking up an inserted key finds the new value; every other key is as before. -/
theorem lookupEntry_insertEntry (k k' : κ) (v : ν) :
    ∀ l : List (κ × ν), l.Pairwise (fun a b => compare a.1 b.1 = .lt) →
      lookupEntry k' (insertEntry k v l) =
        if compare k' k = .eq then some v else lookupEntry k' l
  | [], _ => rfl
  | (j, w) :: rest, h => by
    have hrest := List.pairwise_cons.1 h
    unfold insertEntry
    split
    · rfl
    · next heq =>
      obtain rfl := LawfulEqCmp.eq_of_compare heq
      unfold lookupEntry
      split
      · rfl
      · rfl
    · next hgt =>
      rw [lookupEntry, lookupEntry_insertEntry k k' v rest hrest.2]
      split
      · next heq =>
        obtain rfl := LawfulEqCmp.eq_of_compare heq
        have : compare k' k = .lt := OrientedCmp.lt_of_gt hgt
        simp [this, lookupEntry]
      · next hne => simp [lookupEntry, hne]

theorem get?_insert (t : SortedTable κ ν) (k k' : κ) (v : ν) :
    (t.insert k v).get? k' = if compare k' k = .eq then some v else t.get? k' :=
  lookupEntry_insertEntry k k' v t.entries t.sorted

@[simp] theorem get?_insert_self (t : SortedTable κ ν) (k : κ) (v : ν) :
    (t.insert k v).get? k = some v := by
  simp [get?_insert]

theorem get?_insert_of_ne (t : SortedTable κ ν) {k k' : κ} (v : ν) (h : k' ≠ k) :
    (t.insert k v).get? k' = t.get? k' := by
  simp [get?_insert, h]

omit [TransOrd κ] [LawfulEqOrd κ] in
@[simp] theorem get?_empty (k : κ) : (∅ : SortedTable κ ν).get? k = none := rfl

omit [TransOrd κ] in
/-- A filter by key decides which keys are still answered. -/
theorem lookupEntry_filter (p : κ → Bool) (k : κ) :
    ∀ l : List (κ × ν),
      lookupEntry k (l.filter (fun e => p e.1)) = if p k then lookupEntry k l else none
  | [] => by simp [lookupEntry]
  | (j, w) :: rest => by
    have ih := lookupEntry_filter p k rest
    by_cases hk : compare k j = .eq
    · obtain rfl := LawfulEqCmp.eq_of_compare hk
      by_cases hp : p k <;> simp_all [lookupEntry]
    · by_cases hp : p j <;> simp_all [lookupEntry]

omit [TransOrd κ] in
theorem get?_filterKeys (t : SortedTable κ ν) (p : κ → Bool) (k : κ) :
    (t.filterKeys p).get? k = if p k then t.get? k else none :=
  lookupEntry_filter p k t.entries

omit [TransOrd κ] in
theorem get?_erase (t : SortedTable κ ν) (k k' : κ) :
    (t.erase k).get? k' = if compare k k' = .eq then none else t.get? k' := by
  by_cases h : compare k k' = .eq <;> simp [erase, get?_filterKeys, h]

omit [TransOrd κ] in
/-- A key is stored exactly when some entry has it. -/
theorem lookupEntry_eq_some_iff {k : κ} {v : ν} :
    ∀ {l : List (κ × ν)}, l.Pairwise (fun a b => compare a.1 b.1 = .lt) →
      (lookupEntry k l = some v ↔ (k, v) ∈ l)
  | [], _ => by simp [lookupEntry]
  | (j, w) :: rest, h => by
    have hrest := List.pairwise_cons.1 h
    unfold lookupEntry
    split
    · next heq =>
      obtain rfl := LawfulEqCmp.eq_of_compare heq
      constructor
      · rintro ⟨rfl⟩; exact List.mem_cons_self
      · intro hm
        rcases List.mem_cons.1 hm with hm | hm
        · simp_all
        · exact absurd (hrest.1 _ hm) (by simp)
    · next hne =>
      rw [lookupEntry_eq_some_iff hrest.2]
      constructor
      · exact List.mem_cons_of_mem _
      · intro hm
        rcases List.mem_cons.1 hm with hm | hm
        · simp_all
        · exact hm

omit [TransOrd κ] in
theorem get?_eq_some_iff {t : SortedTable κ ν} {k : κ} {v : ν} :
    t.get? k = some v ↔ (k, v) ∈ t.entries :=
  lookupEntry_eq_some_iff t.sorted

/-! ## Extensionality -/

/-- Sorted entry lists with the same entries are equal. -/
theorem entries_ext :
    ∀ {l₁ l₂ : List (κ × ν)}, l₁.Pairwise (fun a b => compare a.1 b.1 = .lt) →
      l₂.Pairwise (fun a b => compare a.1 b.1 = .lt) → (∀ e, e ∈ l₁ ↔ e ∈ l₂) → l₁ = l₂
  | [], [], _, _, _ => rfl
  | [], b :: _, _, _, h => absurd ((h b).2 List.mem_cons_self) (by simp)
  | a :: _, [], _, _, h => absurd ((h a).1 List.mem_cons_self) (by simp)
  | a :: l₁, b :: l₂, h₁, h₂, h => by
    have h₁' := List.pairwise_cons.1 h₁
    have h₂' := List.pairwise_cons.1 h₂
    have hab : a = b := by
      rcases List.mem_cons.1 ((h a).1 List.mem_cons_self) with hab | hab
      · exact hab
      · rcases List.mem_cons.1 ((h b).2 List.mem_cons_self) with hba | hba
        · exact hba.symm
        · have := TransCmp.lt_trans (h₁'.1 b hba) (h₂'.1 a hab)
          simp at this
    subst hab
    congr 1
    refine entries_ext h₁'.2 h₂'.2 fun e => ⟨fun he => ?_, fun he => ?_⟩
    · rcases List.mem_cons.1 ((h e).1 (List.mem_cons_of_mem _ he)) with rfl | h'
      · exact absurd (h₁'.1 _ he) (by simp)
      · exact h'
    · rcases List.mem_cons.1 ((h e).2 (List.mem_cons_of_mem _ he)) with rfl | h'
      · exact absurd (h₂'.1 _ he) (by simp)
      · exact h'

/-- A table is determined by what it answers. -/
theorem ext_get? {t₁ t₂ : SortedTable κ ν} (h : ∀ k, t₁.get? k = t₂.get? k) : t₁ = t₂ := by
  cases t₁ with
  | mk l₁ h₁ =>
    cases t₂ with
    | mk l₂ h₂ =>
      congr 1
      refine entries_ext h₁ h₂ fun e => ?_
      rw [← lookupEntry_eq_some_iff h₁, ← lookupEntry_eq_some_iff h₂]
      exact iff_of_eq (congrArg (· = some e.2) (h e.1))

end SortedTable

end DhcpRelay
