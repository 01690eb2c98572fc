import DhcpRelay.Manager.Status
import DhcpRelay.Page
import DhcpRelay.Proofs.SortedTable

/-!
# Reading a listing page by page

A request that lies inside a listing gets the items from its position on, as many as it asks for and
as there are (`Page.Covers`). A caller that begins at the first position, and goes on at `next` as
long as there is more, gets every item once and in order (`ReadsOnce`).

The arithmetic of 64-bit integers is enough for listings of fewer than 2^63 items: the page that is
found in it is that of integers without bounds (`paginate64?_eq`). Its only sum that could leave the
range is computed where the sum that stops at the end of the range lies below the length.
-/

namespace DhcpRelay

variable {α : Type}

/-! ## Arithmetic -/

section
variable {a b : Int64} {n : Nat}

theorem toInt_saturatingSum (a b : Int64) : (saturatingSum a b).toInt =
    max Int64.minValue.toInt (min Int64.maxValue.toInt (a.toInt + b.toInt)) := by
  rw [saturatingSum, Int64.toInt_minValue, Int64.toInt_maxValue, Int64.toInt_ofInt_of_le] <;> omega

theorem sum?_of_range (hlow : Int64.minValue.toInt ≤ a.toInt + b.toInt)
    (hhigh : a.toInt + b.toInt ≤ Int64.maxValue.toInt) :
    sum? a b = some (.ofInt (a.toInt + b.toInt)) := by
  rw [sum?, if_pos ⟨hlow, hhigh⟩]

theorem part?_of_le {items : List α} {start stop : Nat} (hstart : start ≤ stop)
    (hstop : stop ≤ items.length) :
    part? items start stop = some ((items.drop start).take (stop - start)) := by
  rw [part?, if_pos ⟨hstart, hstop⟩]

end

/-- In 64-bit arithmetic the page of a list of fewer than 2^63 items is found without leaving the
range or the list, and it is that of integers without bounds. -/
theorem paginate64?_eq {items : List α} (h : items.length < 2 ^ 63) (first count : Int64) :
    paginate64? items first count = some (paginate items first.toInt count.toInt) := by
  have hlength : (Int64.ofNat items.length).toInt = items.length := Int64.toInt_ofNat_of_lt h
  have houtside : (first < 0 ∨ Int64.ofNat items.length ≤ first ∨ count ≤ 0) ↔
      (first.toInt < 0 ∨ (items.length : Int) ≤ first.toInt ∨ count.toInt ≤ 0) := by
    rw [Int64.lt_iff_toInt_lt, Int64.le_iff_toInt_le, Int64.le_iff_toInt_le, hlength,
      Int64.toInt_zero]
  have hfits : Int64.ofNat items.length ≤ saturatingSum first count ↔
      (items.length : Int) ≤ first.toInt + count.toInt := by
    rw [Int64.le_iff_toInt_le, hlength, toInt_saturatingSum, Int64.toInt_minValue,
      Int64.toInt_maxValue]
    omega
  rw [paginate64?, paginate]
  simp only [houtside, hfits, ← Int64.toNat_toInt]
  split
  · rfl
  next hin =>
  have hstart : first.toInt.toNat ≤ items.length := by omega
  split
  · next hend =>
    -- Both parts are the whole rest of the list.
    have hshort : (items.drop first.toInt.toNat).length ≤ count.toInt.toNat := by
      rw [List.length_drop]
      omega
    have hrest : (items.drop first.toInt.toNat).take count.toInt.toNat =
        (items.drop first.toInt.toNat).take (items.length - first.toInt.toNat) := by
      rw [List.take_of_length_le hshort, List.take_of_length_le (Nat.le_of_eq List.length_drop)]
    rw [hlength, Int.toNat_natCast, part?_of_le hstart (Nat.le_refl _), hrest]
    rfl
  · next hend =>
    have hlow : -2 ^ 63 ≤ first.toInt + count.toInt := by omega
    have hhigh : first.toInt + count.toInt < 2 ^ 63 := by omega
    have hstop : (first.toInt + count.toInt).toNat = first.toInt.toNat + count.toInt.toNat := by
      omega
    have htaken : ((items.drop first.toInt.toNat).take count.toInt.toNat).length =
        count.toInt.toNat := by
      rw [List.length_take, List.length_drop]
      omega
    have hsum : sum? first count = some (.ofInt (first.toInt + count.toInt)) :=
      sum?_of_range (by rwa [Int64.toInt_minValue])
        (by rw [Int64.toInt_maxValue]; exact Int.le_sub_one_of_lt hhigh)
    rw [hsum, Option.bind_eq_bind, Option.bind_some,
      Int64.toInt_ofInt_of_le hlow hhigh, hstop, part?_of_le (Nat.le_add_right _ _) (by omega),
      Nat.add_sub_cancel_left, Option.bind_eq_bind, Option.bind_some, htaken]
    rfl

/-! ## Pages -/

/-- A request lies inside a listing: its position is one of an item, and it asks for some. -/
def Requests (items : List α) (first count : Int) : Prop :=
  0 ≤ first ∧ first < items.length ∧ 0 < count

instance (items : List α) (first count : Int) : Decidable (Requests items first count) :=
  inferInstanceAs (Decidable (_ ∧ _ ∧ _))

namespace Page

/-- A page has the items from a position on, as many as are asked for and there are. It tells
whether items remain after it, and if so where they begin. -/
structure Covers (p : Page α) (items : List α) (first count : Int) : Prop where
  items_eq : p.items = items.extract first.toNat (min (first + count) items.length).toNat
  start_eq : p.start = first
  count_eq : p.count = p.items.length
  more_iff : p.more = true ↔ p.start + p.items.length < items.length
  next_eq : p.next = if p.more then p.start + p.items.length else 0

/-- A page without items, which says that there is nothing to go on with. -/
structure Blank (p : Page α) : Prop where
  items_eq : p.items = []
  count_eq : p.count = 0
  more_eq : p.more = false
  next_eq : p.next = 0

end Page

section
variable {items : List α} {first count : Int}

theorem paginate_covers (h : Requests items first count) :
    (paginate items first count).Covers items first count := by
  obtain ⟨hfirst, hlt, hcount⟩ := h
  have hstart : (first.toNat : Int) = first := Int.toNat_of_nonneg hfirst
  have hlength : ((items.drop first.toNat).take count.toNat).length =
      min count.toNat (items.length - first.toNat) := by
    rw [List.length_take, List.length_drop]
  have hitems : (items.drop first.toNat).take count.toNat =
      items.extract first.toNat (min (first + count) items.length).toNat := by
    rw [List.extract, List.take_eq_take_iff, List.length_drop]
    omega
  rw [paginate, if_neg (by omega)]
  split
  · next hend =>
    refine ⟨hitems, hstart, rfl, ?_, rfl⟩
    simp only [hlength, Bool.false_eq_true, false_iff]
    omega
  · next hend =>
    refine ⟨hitems, hstart, rfl, ?_, (if_pos rfl).symm⟩
    simp only [hlength, true_iff]
    omega

/-- What a page has and what comes after it is the listing from the page's position on. -/
theorem Page.Covers.append_drop {p : Page α} (h : p.Covers items first count) :
    p.items ++ items.drop (p.start + p.items.length) = items.drop p.start := by
  have hstart : first.toNat = p.start := by rw [← h.start_eq, Int.toNat_natCast]
  have hprefix : p.items <+: items.drop p.start := by
    rw [h.items_eq, hstart]
    exact List.take_prefix _ _
  obtain ⟨later, hlater⟩ := hprefix
  rw [← List.drop_drop, ← hlater, List.drop_left]

theorem Page.Covers.length_pos {p : Page α} (h : p.Covers items first count)
    (hr : Requests items first count) : 0 < p.items.length := by
  obtain ⟨hfirst, hlt, hcount⟩ := hr
  rw [h.items_eq, List.extract, List.length_take, List.length_drop]
  omega

theorem paginate_blank (h : ¬ Requests items first count) : (paginate items first count).Blank := by
  rw [Requests] at h
  rw [paginate, if_pos (by omega)]
  exact ⟨rfl, rfl, rfl, rfl⟩

end

/-! ## Reading on -/

/-- The pages that a caller reads who begins at a position and, as long as there is more, goes on at
the one that the page names. -/
inductive Walk (pageAt : Int64 → Option (Page α)) : Int64 → List (Page α) → Prop where
  | last {first : Int64} {page : Page α} (found : pageAt first = some page)
    (ends : page.more = false) : Walk pageAt first [page]
  | more {first : Int64} {page : Page α} {later : List (Page α)} (found : pageAt first = some page)
    (goesOn : page.more = true) (rest : Walk pageAt (.ofNat page.next) later) :
    Walk pageAt first (page :: later)

/-- Reading on from the first position comes to an end, in one way only, and gives the items of a
listing, each once and in order. -/
def ReadsOnce (pageAt : Int64 → Option (Page α)) (items : List α) : Prop :=
  ∃ pages, Walk pageAt 0 pages ∧ pages.flatMap Page.items = items ∧
    ∀ others, Walk pageAt 0 others → others = pages

section
variable {pageAt : Int64 → Option (Page α)} {items : List α} {count : Int64}

/-- Whoever reads on from a position reads the same pages. -/
theorem Walk.unique {first : Int64} {pages others : List (Page α)} (h : Walk pageAt first pages)
    (h' : Walk pageAt first others) : others = pages := by
  induction h generalizing others with
  | last found ends =>
    cases h' with
    | last found' _ => rw [Option.some.inj (found'.symm.trans found)]
    | more found' goesOn' _ =>
      rw [Option.some.inj (found'.symm.trans found), ends] at goesOn'
      cases goesOn'
  | more found goesOn _ ih =>
    cases h' with
    | last found' ends' =>
      rw [Option.some.inj (found'.symm.trans found), goesOn] at ends'
      cases ends'
    | more found' _ rest' =>
      obtain rfl := Option.some.inj (found'.symm.trans found)
      rw [ih rest']

/-- From the position of an item the walk ends, with all items from there on. -/
theorem exists_walk (h : items.length < 2 ^ 63) (hcount : 0 < count.toInt) (first : Nat)
    (hfirst : first < items.length) :
    ∃ pages, Walk (paginate64? items · count) (.ofNat first) pages ∧
      pages.flatMap Page.items = items.drop first := by
  -- Every page is nearer to the end by the items it has, and it has some.
  induction hn : items.length - first using Nat.strongRecOn generalizing first with
  | ind n ih =>
  have hpos : (Int64.ofNat first).toInt = first := Int64.toInt_ofNat_of_lt (by omega)
  have hr : Requests items first count.toInt := ⟨by omega, by omega, hcount⟩
  have hfound := paginate64?_eq h (.ofNat first) count
  rw [hpos] at hfound
  have hc := paginate_covers hr
  generalize paginate items first count.toInt = p at hfound hc
  have hstart : p.start = first := Int.ofNat_inj.1 hc.start_eq
  have hitems := hc.append_drop
  have hlength := hc.length_pos hr
  have hnext := hc.next_eq
  rw [hstart] at hitems hnext
  cases hmore : p.more with
  | false =>
    have hend : ¬ p.start + p.items.length < items.length := by simp [← hc.more_iff, hmore]
    rw [List.drop_of_length_le (by omega), List.append_nil] at hitems
    exact ⟨[p], .last hfound hmore, by rw [List.flatMap_singleton, hitems]⟩
  | true =>
    have hremain := hc.more_iff.1 hmore
    rw [hmore, if_pos rfl] at hnext
    obtain ⟨pages, hwalk, hpages⟩ := ih _ (by omega) p.next (by omega) rfl
    exact ⟨p :: pages, .more hfound hmore hwalk, by rw [List.flatMap_cons, hpages, hnext, hitems]⟩

/-- Reading on from the first position gives all items. -/
theorem readsOnce (h : items.length < 2 ^ 63) (hcount : 0 < count.toInt) :
    ReadsOnce (paginate64? items · count) items := by
  suffices hwalk : ∃ pages, Walk (paginate64? items · count) 0 pages ∧
      pages.flatMap Page.items = items by
    obtain ⟨pages, hwalk, hitems⟩ := hwalk
    exact ⟨pages, hwalk, hitems, fun others => hwalk.unique⟩
  cases items with
  | nil =>
    have hb : (paginate ([] : List α) (Int64.toInt 0) count.toInt).Blank :=
      paginate_blank fun hr => absurd hr.2.1 (by simp)
    refine ⟨_, .last (paginate64?_eq h 0 count) hb.more_eq, ?_⟩
    rw [List.flatMap_singleton, hb.items_eq]
  | cons item items => exact exists_walk h hcount 0 (Nat.succ_pos _)

end

/-- Fewer than 2^63 items are read page by page in 64-bit arithmetic, with any count. Every request
finds a page: one that lies inside the listing the items it asks for, and any other one nothing.
With a positive count reading on from the first position gives every item once; and if the items are
the values of a table, these are the pages of the table, and its records stand in the order of their
keys. -/
theorem pages_read_once {items : List α} (h : items.length < 2 ^ 63) (count : Int64) :
    (∀ first, ∃ p, paginate64? items first count = some p ∧
      p = paginate items first.toInt count.toInt ∧
      if Requests items first.toInt count.toInt then p.Covers items first.toInt count.toInt
      else p.Blank) ∧
    (0 < count → ReadsOnce (paginate64? items · count) items) ∧
    ∀ t : SortedTable String α, t.values = items →
      (paginate64? items · count) = (fun first => some (t.page first.toInt count.toInt)) ∧
      t.keys.Pairwise (fun a b => compare a b = .lt) ∧ items.map some = t.keys.map t.get? := by
  refine ⟨fun first => ?_, fun hcount => ?_, fun t ht => ⟨?_, ?_, ?_⟩⟩
  · refine ⟨_, paginate64?_eq h first count, rfl, ?_⟩
    split
    · next hr => exact paginate_covers hr
    · next hr => exact paginate_blank hr
  · rw [Int64.lt_iff_toInt_lt, Int64.toInt_zero] at hcount
    exact readsOnce h hcount
  · funext first
    rw [paginate64?_eq h, SortedTable.page, ht]
  · exact t.keys_sorted
  · rw [← ht, t.map_get?_keys]

/-- Four items in pages of two: the last page is a full one. -/
theorem pages_read_once_of_four :
    let items := ["a", "b", "c", "d"]
    items.length < 2 ^ 63 ∧ ReadsOnce (paginate64? items · 2) items ∧
      Walk (paginate64? items · 2) 0
        [⟨0, 2, 2, true, ["a", "b"]⟩, ⟨2, 0, 2, false, ["c", "d"]⟩] := by
  intro items
  have h : items.length < 2 ^ 63 := by decide
  exact ⟨h, (pages_read_once h 2).2.1 (by decide),
    .more (by decide) rfl (.last (by decide) rfl)⟩

/-! ## Pages without bound -/

/-- Whoever asks for as many items as a 64-bit integer can count gets all of them. -/
theorem items_paginate_all {items : List α} (h : items.length < 2 ^ 63) :
    (paginate items 0 Int64.maxValue.toInt).items = items := by
  by_cases hr : Requests items 0 Int64.maxValue.toInt
  · have hall : (min (0 + Int64.maxValue.toInt) items.length).toNat = items.length := by
      rw [Int64.toInt_maxValue]
      omega
    rw [(paginate_covers hr).items_eq, hall]
    exact List.take_of_length_le (Nat.le_refl _)
  · have hnil : items.length = 0 := by
      rw [Requests, Int64.toInt_maxValue] at hr
      omega
    rw [(paginate_blank hr).items_eq, List.length_eq_zero_iff.1 hnil]

/-- The records of a report are those of such a page. -/
theorem map_snd_report {ν : Type} {t : SortedTable String ν} (h : t.values.length < 2 ^ 63)
    (encode : ν → Json) :
    (t.report encode).map (·.2) = (t.page 0 Int64.maxValue.toInt).items.map encode := by
  rw [SortedTable.page, items_paginate_all h, SortedTable.report, SortedTable.values, List.map_map,
    List.map_map]
  rfl

end DhcpRelay
