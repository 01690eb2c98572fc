import DhcpRelay.Proofs.Watch.Regular

/-!
# A difference is exact and minimal

An event does not name the kind of its address, so whoever replays it has to read the kind off the
address (`Snapshot.eventKey?`). In snapshots of listings this gives back the key that the event is
about, because their entries are placed. So the events of a difference can be replayed one after
another by what they say alone, each where it fits (`Snapshot.replay?`), and they lead from the old
snapshot to the new one (`Snapshot.Leads.replayAll?_eq`).

Nothing is said twice: what a difference has about a key is determined by the two entries of that
key (`Snapshot.changes`), whatever the other keys hold (`Snapshot.filter_diff`).
-/

namespace DhcpRelay.Watch

open Interface (Event)

namespace Snapshot

/-! ## Replaying events by what they say -/

/-- The key that an event is about: its family and index, and the kind of its address. -/
def eventKey? (e : Event) : Option Key := do
  let text ← e.address
  let c ← Cidr.parse? text
  return ⟨e.family, e.index, (placeOf c.address).2⟩

/-- The snapshot after an event, if it fits: an address that appears has no entry yet, and one that
disappears, or whose interface goes up or down, has an entry with the name and the address of the
event. -/
def replay? (s : Snapshot) (e : Event) : Option Snapshot := do
  let key ← eventKey? e
  let address ← e.address
  match e.change, s.get? key with
  | .created up, none => some (s.insert key ⟨e.name, address, up⟩)
  | .deleted, some old =>
    if old.name = e.name ∧ old.address = address then some (s.erase key) else none
  | .stateChanged up, some old =>
    if old.name = e.name ∧ old.address = address then some (s.insert key { old with up }) else none
  | _, _ => none

/-- The snapshot after events, first to last, if each fits. -/
def replayAll? (s : Snapshot) (es : List Event) : Option Snapshot := es.foldlM replay? s

/-- The events about one key that lead from one entry to another: none between equal ones, one if
there is an entry on one side only or if the interface went up or down, and a deletion followed by
a creation if the name or the address changed. -/
def changes (key : Key) : Option Entry → Option Entry → List Event
  | none, none => []
  | some old, none => [event key old .deleted]
  | none, some new => [event key new (.created new.up)]
  | some old, some new =>
    if old = new then []
    else if old.name = new.name ∧ old.address = new.address then
      [event key new (.stateChanged new.up)]
    else [event key old .deleted, event key new (.created new.up)]

section
variable {s t prev next : Snapshot} {key : Key} {e : Entry}
  {ev : Event} {es : List Event}

/-- The event about a placed entry is about the entry's key. -/
theorem eventKey?_event (h : e.Placed key) (change : Interface.Change) :
    eventKey? (event key e change) = some key := by
  obtain ⟨c, hc, hplace⟩ := h
  simp [eventKey?, event, hc, hplace]

/-- An event that fits and leads to another snapshot does so by what it says, if the entries of
both are placed. -/
theorem Replays.replay?_eq (h : s.Replays ev t) (hs : s.Placed) (ht : t.Placed) :
    s.replay? ev = some t := by
  cases h with
  | created key e hnone =>
    have hkey := eventKey?_event (ht key e (SortedTable.get?_insert_self s key e)) (.created e.up)
    rw [replay?, hkey]
    simp [event, hnone]
  | deleted key e he =>
    have hkey := eventKey?_event (hs key e he) .deleted
    rw [replay?, hkey]
    simp [event, he]
  | stateChanged key old e hold hsame =>
    obtain ⟨hname, haddress⟩ := Entry.sameAddress_iff.1 hsame
    have hkey := eventKey?_event (ht key e (SortedTable.get?_insert_self s key e))
      (.stateChanged e.up)
    rw [replay?, hkey]
    simp [event, hold, hname, haddress]

/-- Events that lead from one snapshot to another, all stages having placed entries, do so by what
they say. -/
theorem Leads.replayAll?_eq (h : Leads Placed s es t) : s.replayAll? es = some t := by
  induction h with
  | done => rfl
  | step hs hr rest ih =>
    rw [replayAll?, List.foldlM_cons, hr.replay?_eq hs rest.holds]
    exact ih

/-! ## What a difference has about a key -/

/-- What the deletions have about a key comes from its old entry. -/
theorem filter_deletions (hprev : prev.Placed) (next : Snapshot) (key : Key) :
    (prev.entries.filterMap (deletion? next)).filter (eventKey? · = some key) =
      ((prev.get? key).bind fun e => deletion? next (key, e)).toList := by
  refine SortedTable.filter_filterMap_entries prev fun e he ev hev => ?_
  have hplaced := hprev e.1 e.2 (SortedTable.get?_eq_some_iff.2 he)
  unfold deletion? at hev
  split at hev
  · cases hev
  · obtain rfl := Option.some.inj hev
    simp [eventKey?_event hplaced]

/-- What the other events have about a key comes from its new entry. -/
theorem filter_arrivals (hnext : next.Placed) (prev : Snapshot) (key : Key) :
    (next.entries.filterMap (arrival? prev)).filter (eventKey? · = some key) =
      ((next.get? key).bind fun e => arrival? prev (key, e)).toList := by
  refine SortedTable.filter_filterMap_entries next fun e he ev hev => ?_
  have hplaced := hnext e.1 e.2 (SortedTable.get?_eq_some_iff.2 he)
  unfold arrival? at hev
  split at hev
  · obtain rfl := Option.some.inj hev
    simp [eventKey?_event hplaced]
  · split at hev
    · cases hev
    · obtain rfl := Option.some.inj hev
      simp [eventKey?_event hplaced]

/-- What a difference has about a key are the changes from its old entry to its new one. -/
theorem filter_diff (hprev : prev.Placed) (hnext : next.Placed) (key : Key) :
    (prev.diff next).filter (eventKey? · = some key) =
      changes key (prev.get? key) (next.get? key) := by
  rw [diff, List.filter_append, filter_deletions hprev, filter_arrivals hnext]
  cases hold : prev.get? key with
  | none =>
    cases hnew : next.get? key with
    | none => rfl
    | some new => simp [changes, arrival?, hold]
  | some old =>
    cases hnew : next.get? key with
    | none => simp [changes, deletion?, hnew]
    | some new =>
      by_cases hsame : old.sameAddress new = true
      · have hsame' : new.sameAddress old = true := Entry.sameAddress_comm old new ▸ hsame
        obtain ⟨hname, haddress⟩ := Entry.sameAddress_iff.1 hsame
        by_cases hup : old.up = new.up
        · obtain rfl := Entry.eq_of_sameAddress hsame hup
          simp [changes, deletion?, arrival?, hold, hnew, hsame, Option.filter_some]
        · have hne : old ≠ new := fun h => hup (congrArg Entry.up h)
          simp [changes, deletion?, arrival?, hold, hnew, hsame, hsame', hname, haddress, hup, hne,
            Option.filter_some]
      · have hsame' : ¬ new.sameAddress old = true := Entry.sameAddress_comm old new ▸ hsame
        have hne : old ≠ new := fun h => hsame (h ▸ old.sameAddress_refl)
        have hmoved : ¬ (old.name = new.name ∧ old.address = new.address) :=
          mt Entry.sameAddress_iff.2 hsame
        simp [changes, deletion?, arrival?, hold, hnew, hsame, hsame', hmoved, hne,
          Option.filter_some]

/-- Between a snapshot and itself there are no events. -/
theorem diff_self (s : Snapshot) : s.diff s = [] := by
  rw [diff, List.append_eq_nil_iff, List.filterMap_eq_nil_iff, List.filterMap_eq_nil_iff]
  constructor
  · intro e he
    have hget : s.get? e.1 = some e.2 := SortedTable.get?_eq_some_iff.2 he
    simp [deletion?, hget, Entry.sameAddress_refl]
  · intro e he
    have hget : s.get? e.1 = some e.2 := SortedTable.get?_eq_some_iff.2 he
    simp [arrival?, hget, Entry.sameAddress_refl, Option.filter_some]

/-- The difference of two snapshots of listings can be replayed over the old one, each event by what
it says: at every deletion the key has the entry that the event names, at every creation it has
none, and at every change of state it has one with the name and the address of the event. This
gives the new snapshot. What the difference has about a key are the changes from its old entry to
its new one, so it is empty exactly if the snapshots are equal. -/
theorem diff_exact_and_minimal (prevLinks nextLinks : List Link) :
    let prev := ofLinks prevLinks
    let next := ofLinks nextLinks
    prev.replayAll? (prev.diff next) = some next ∧
    (∀ key, (prev.diff next).filter (eventKey? · = some key) =
      changes key (prev.get? key) (next.get? key)) ∧
    (prev.diff next = [] ↔ prev = next) := by
  intro prev next
  have hprev : prev.Placed := placed_ofLinks prevLinks
  have hnext : next.Placed := placed_ofLinks nextLinks
  have hreplay : prev.replayAll? (prev.diff next) = some next :=
    (hprev.leads_diff hnext).replayAll?_eq
  refine ⟨hreplay, filter_diff hprev hnext, fun hnone => ?_, fun heq => ?_⟩
  · rw [hnone] at hreplay
    exact Option.some.inj hreplay
  · rw [heq]
    exact diff_self next

end

end Snapshot

end DhcpRelay.Watch
