import DhcpRelay.Proofs.Manager.Tables

/-!
# Tables that mirror a snapshot

A property table mirrors a snapshot at a family and kind if it holds, at every index, the property
that the entry there describes (`Watch.Mirrors`). An event that fits a snapshot, taken by a manager
whose tables mirror it, makes the tables mirror the snapshot that the event leads to
(`Manager.Mirrored.notify`).

Only an address that appears could do harm: its name may be taken, and then the interface that has
it is evicted. This does not happen because names are distinct in the snapshot that the event leads
to.
-/

namespace DhcpRelay

open Interface (Change Event Property PropertyTable)
open Watch (Entry Key Kind Snapshot placeOf)

namespace Watch

/-- The property that an entry describes at an index, if its address can be read. -/
def Entry.property? (i : Int) (e : Entry) : Option Property :=
  (Cidr.parse? e.address).map fun c => ⟨i, e.name, some c.address, c.prefixLen, e.up⟩

/-- A consistent table holds at every index the property that the entry of a family and kind
describes. -/
structure Mirrors (t : PropertyTable) (s : Snapshot) (family : Family) (kind : Kind) : Prop where
  consistent : t.Consistent
  get?_eq : ∀ i, t.get? i = (s.get? ⟨family, i, kind⟩).bind (Entry.property? i)

section
variable {t : PropertyTable} {s u : Snapshot} {key : Key} {e old : Entry} {c : Cidr}
  {family : Family} {kind : Kind}

/-- The empty table mirrors the empty snapshot. -/
theorem Mirrors.empty : Mirrors {} ∅ family kind := ⟨.empty, fun _ => rfl⟩

/-- A table mirrors whatever says the same about its family and kind. -/
theorem Mirrors.congr (h : Mirrors t s family kind)
    (hs : ∀ i, u.get? ⟨family, i, kind⟩ = s.get? ⟨family, i, kind⟩) : Mirrors t u family kind :=
  ⟨h.consistent, fun i => by rw [hs]; exact h.get?_eq i⟩

theorem Entry.property?_eq (hc : Cidr.parse? e.address = some c) (i : Int) :
    e.property? i = some ⟨i, e.name, some c.address, c.prefixLen, e.up⟩ := by
  rw [Entry.property?, hc, Option.map_some]

/-- A name that is new among distinct ones leads nowhere in the table. -/
theorem Mirrors.index?_eq_none (h : Mirrors t s key.family key.kind) (hnone : s.get? key = none)
    (hnames : Snapshot.NamesDistinct (s.insert key e)) : t.index? e.name = none := by
  rw [h.consistent.index?_eq_none_iff]
  intro j p hp hname
  rw [h.get?_eq, Option.bind_eq_some_iff] at hp
  obtain ⟨x, hx, hprop⟩ := hp
  obtain ⟨c, -, rfl⟩ := Option.map_eq_some_iff.1 hprop
  have hne : (⟨key.family, j, key.kind⟩ : Key) ≠ key := by
    intro hk
    rw [hk, hnone] at hx
    cases hx
  have hx' := (SortedTable.get?_insert_of_ne s e hne).trans hx
  have hj := hnames key.family key.kind j key.index x e hx' (s.get?_insert_self key e) hname
  exact hne (congrArg (fun i => (⟨key.family, i, key.kind⟩ : Key)) hj)

/-- Two keys of one family and kind are the same when their indices are. -/
theorem Key.mk_eq_iff {i : Int} :
    (⟨key.family, i, key.kind⟩ : Key) = key ↔ i = key.index :=
  ⟨fun h => congrArg Key.index h, fun h => h ▸ rfl⟩

/-- Storing the property of a new entry whose name leads nowhere. -/
theorem Mirrors.created (h : Mirrors t s key.family key.kind) (hname : t.index? e.name = none)
    (hc : Cidr.parse? e.address = some c) :
    Mirrors (Manager.tableChange key e c (.created e.up) t) (s.insert key e) key.family
      key.kind where
  consistent := h.consistent.upsert _
  get?_eq i := by
    rw [Manager.tableChange, PropertyTable.get?_upsert, SortedTable.get?_insert_eq]
    simp only [Manager.propertyOf, hname, Key.mk_eq_iff]
    split
    · next hi => rw [Option.bind_some, Entry.property?_eq hc, hi]
    · exact h.get?_eq i

/-- Removing the property of an entry. -/
theorem Mirrors.deleted (h : Mirrors t s key.family key.kind) :
    Mirrors (Manager.tableChange key e c .deleted t) (s.erase key) key.family key.kind where
  consistent := h.consistent.remove _
  get?_eq i := by
    rw [Manager.tableChange, PropertyTable.get?_remove, SortedTable.get?_erase_eq]
    simp only [Key.mk_eq_iff]
    split
    · rfl
    · exact h.get?_eq i

/-- Recording that the interface of an entry went up or down. -/
theorem Mirrors.stateChanged (h : Mirrors t s key.family key.kind) (hold : s.get? key = some old)
    (hsame : old.sameAddress e = true) (hc : Cidr.parse? e.address = some c) :
    Mirrors (Manager.tableChange key e c (.stateChanged e.up) t) (s.insert key e) key.family
      key.kind where
  consistent := h.consistent.setUp _ _
  get?_eq i := by
    obtain ⟨hname, haddress⟩ := Entry.sameAddress_iff.1 hsame
    rw [Manager.tableChange, PropertyTable.get?_setUp, SortedTable.get?_insert_eq]
    simp only [Key.mk_eq_iff]
    split
    · next hi =>
      rw [h.get?_eq, show (⟨key.family, key.index, key.kind⟩ : Key) = key from rfl, hold,
        Option.bind_some, Option.bind_some, Entry.property?_eq hc,
        Entry.property?_eq (haddress ▸ hc), Option.map_some, hname, hi]
    · exact h.get?_eq i

end

end Watch

/-! ## Events that a manager takes -/

namespace Manager

open Watch (Mirrors)

section
variable {σ₄ σ₆ : Type} {l : Lifecycles σ₄ σ₆} {m : Manager σ₄ σ₆} {s t : Snapshot} {e : Event}

/-- Every table mirrors a snapshot. -/
def Mirrored (m : Manager σ₄ σ₆) (s : Snapshot) : Prop :=
  ∀ family kind, Mirrors (m.table family kind) s family kind

/-- The index of a key holds what its entry describes. -/
theorem Mirrored.get?_key (h : m.Mirrored s) (key : Key) :
    (m.table key.family key.kind).get? key.index =
      (s.get? key).bind (Entry.property? key.index) :=
  (h key.family key.kind).get?_eq key.index

/-- What the index of an event holds before it is taken and afterwards. -/
def Exchange (e : Event) (c : Cidr) (before after : Option Property) : Prop :=
  let held (up : Bool) : Property := ⟨e.index, e.name, some c.address, c.prefixLen, up⟩
  match e.change with
  | .created up => before = none ∧ after = some (held up)
  | .deleted => (∃ up, before = some (held up)) ∧ after = none
  | .stateChanged up => (∃ up, before = some (held up)) ∧ after = some (held up)

/-- An event is taken, its index in the table of its address holds what it should before and
afterwards, and nothing else changes. -/
structure Lands (m m' : Manager σ₄ σ₆) (e : Event) (c : Cidr) (kind : Kind) : Prop where
  address_eq : Agent.eventAddress? e = some (some c)
  place_eq : placeOf c.address = (e.family, kind)
  exchange : Exchange e c ((m.table e.family kind).get? e.index)
    ((m'.table e.family kind).get? e.index)
  others : ∀ f k i, ¬ (f = e.family ∧ k = kind ∧ i = e.index) →
    (m'.table f k).get? i = (m.table f k).get? i

/-- A table change concerns one index, unless it evicts. -/
theorem get?_tableChange_of_ne {key : Key} {x : Entry} {c : Cidr} {change : Change}
    {t : PropertyTable} (hfree : ∀ up, change = .created up → t.index? x.name = none) {i : Int}
    (hi : i ≠ key.index) : (tableChange key x c change t).get? i = t.get? i := by
  cases change with
  | created up =>
    rw [tableChange, PropertyTable.get?_upsert]
    simp [propertyOf, hi, hfree up rfl]
  | deleted => rw [tableChange, PropertyTable.get?_remove, if_neg hi]
  | stateChanged up => rw [tableChange, PropertyTable.get?_setUp, if_neg hi]

section
variable {key : Key} {x old : Entry} {c : Cidr} {change : Change}

/-- If an event makes the table that it changes mirror a snapshot that differs at its key only, all
tables mirror that one. -/
theorem Mirrored.of_change (h : m.Mirrored s) (hc : Cidr.parse? x.address = some c)
    (hplace : placeOf c.address = (key.family, key.kind))
    (htable : Mirrors (tableChange key x c change (m.table key.family key.kind)) t key.family
      key.kind)
    (hother : ∀ k, k ≠ key → t.get? k = s.get? k) (l : Lifecycles σ₄ σ₆) :
    (m.notify l (Snapshot.event key x change)).Mirrored t := by
  intro f k
  rw [table_notify l m change hc hplace]
  split
  · next hkey =>
    obtain ⟨rfl, rfl⟩ := hkey
    exact htable
  · next hne =>
    refine (h f k).congr fun i => hother _ fun hk => hne ?_
    exact ⟨congrArg Key.family hk, congrArg Key.kind hk⟩

/-- An event whose index holds what it should, and whose name is free if its address appears,
lands. -/
theorem lands_of_change (hc : Cidr.parse? x.address = some c)
    (hplace : placeOf c.address = (key.family, key.kind))
    (hfree : ∀ up, change = .created up → (m.table key.family key.kind).index? x.name = none)
    (hexchange : Exchange (Snapshot.event key x change) c
      ((m.table key.family key.kind).get? key.index)
      ((tableChange key x c change (m.table key.family key.kind)).get? key.index))
    (l : Lifecycles σ₄ σ₆) :
    Lands m (m.notify l (Snapshot.event key x change)) (Snapshot.event key x change) c
      key.kind where
  address_eq := eventAddress?_event change hc hplace
  place_eq := hplace
  exchange := by
    have htable := (table_notify l m change hc hplace key.family key.kind).trans
      (if_pos ⟨rfl, rfl⟩)
    exact htable ▸ hexchange
  others f k i hne := by
    rw [table_notify l m change hc hplace]
    split
    · next hkey =>
      obtain ⟨rfl, rfl⟩ := hkey
      exact get?_tableChange_of_ne hfree fun hi => hne ⟨rfl, rfl, hi⟩
    · rfl

end

/-- An event that fits a regular snapshot and leads to another one lands, and the tables mirror that
one afterwards. -/
theorem Mirrored.notify (h : m.Mirrored s) (hs : s.Regular) (hr : s.Replays e t)
    (ht : t.Regular) (l : Lifecycles σ₄ σ₆) :
    (m.notify l e).Mirrored t ∧ ∃ c kind, Lands m (m.notify l e) e c kind := by
  cases hr with
  | created key x hnone =>
    obtain ⟨c, hc, hplace⟩ := ht.placed key x (s.get?_insert_self key x)
    have hname := (h key.family key.kind).index?_eq_none hnone ht.names
    have hexchange : Exchange (Snapshot.event key x (.created x.up)) c
        ((m.table key.family key.kind).get? key.index)
        ((tableChange key x c (.created x.up) (m.table key.family key.kind)).get? key.index) := by
      constructor
      · rw [h.get?_key, hnone, Option.bind_none]
      · rw [tableChange, PropertyTable.get?_upsert]
        exact if_pos rfl
    exact ⟨h.of_change hc hplace ((h _ _).created hname hc)
      (fun k hk => s.get?_insert_of_ne x hk) l, c, key.kind,
      lands_of_change hc hplace (fun _ _ => hname) hexchange l⟩
  | deleted key x hx =>
    obtain ⟨c, hc, hplace⟩ := hs.placed key x hx
    have hexchange : Exchange (Snapshot.event key x .deleted) c
        ((m.table key.family key.kind).get? key.index)
        ((tableChange key x c .deleted (m.table key.family key.kind)).get? key.index) := by
      refine ⟨⟨x.up, ?_⟩, ?_⟩
      · rw [h.get?_key, hx, Option.bind_some, Entry.property?_eq hc]
        rfl
      · rw [tableChange, PropertyTable.get?_remove, if_pos rfl]
    refine ⟨h.of_change hc hplace (h _ _).deleted (fun k hk => ?_) l, c, key.kind,
      lands_of_change hc hplace (fun _ he => by cases he) hexchange l⟩
    rw [SortedTable.get?_erase_eq, if_neg hk]
  | stateChanged key old x hold hsame =>
    obtain ⟨c, hc, hplace⟩ := ht.placed key x (s.get?_insert_self key x)
    obtain ⟨hname, haddress⟩ := Entry.sameAddress_iff.1 hsame
    have hbefore : (m.table key.family key.kind).get? key.index =
        some ⟨key.index, x.name, some c.address, c.prefixLen, old.up⟩ := by
      rw [h.get?_key, hold, Option.bind_some, Entry.property?_eq (haddress ▸ hc), hname]
    have hexchange : Exchange (Snapshot.event key x (.stateChanged x.up)) c
        ((m.table key.family key.kind).get? key.index)
        ((tableChange key x c (.stateChanged x.up) (m.table key.family key.kind)).get?
          key.index) := by
      refine ⟨⟨old.up, hbefore⟩, ?_⟩
      rw [tableChange, PropertyTable.get?_setUp, if_pos rfl, hbefore]
      rfl
    exact ⟨h.of_change hc hplace ((h _ _).stateChanged hold hsame hc)
      (fun k hk => s.get?_insert_of_ne x hk) l, c, key.kind,
      lands_of_change hc hplace (fun _ he => by cases he) hexchange l⟩

end

end Manager

end DhcpRelay
