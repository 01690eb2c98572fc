import DhcpRelay.Proofs.SortedTable
import DhcpRelay.Watch.Snapshot

/-!
# Replaying a difference

An event can be replayed over a snapshot if it fits: an address that appears has no entry yet, one
that disappears has the entry that the event names, and one whose interface goes up or down has an
entry with the event's name and address (`Snapshot.Replays`). The events of a difference can be
replayed one after another, and lead from one snapshot to the other (`Snapshot.leads_diff`).

On the way every snapshot is a part of the first one, while the deletions last, or has only names
and addresses of the second one, while the rest lasts. A property that passes to such snapshots
holds at every stage: this is why deletions come first.
-/

namespace DhcpRelay.Watch

open Interface (Event)

namespace Entry

theorem sameAddress_iff {a b : Entry} :
    a.sameAddress b = true ↔ a.name = b.name ∧ a.address = b.address := by
  simp [sameAddress]

theorem sameAddress_refl (a : Entry) : a.sameAddress a = true := sameAddress_iff.2 ⟨rfl, rfl⟩

theorem sameAddress_comm (a b : Entry) : a.sameAddress b = b.sameAddress a := by
  rw [Bool.eq_iff_iff, sameAddress_iff, sameAddress_iff, eq_comm, eq_comm (a := a.address)]

/-- Entries with the same name and address differ at most in whether the interface is up. -/
theorem eq_of_sameAddress {a b : Entry} (h : a.sameAddress b = true) (hup : a.up = b.up) :
    a = b := by
  obtain ⟨hname, haddress⟩ := sameAddress_iff.1 h
  cases a
  cases b
  congr

end Entry

namespace Snapshot

/-! ## Replays -/

/-- An event fits a snapshot and turns it into another one. -/
inductive Replays (s : Snapshot) : Event → Snapshot → Prop where
  | created (key : Key) (e : Entry) (h : s.get? key = none) :
    Replays s (event key e (.created e.up)) (s.insert key e)
  | deleted (key : Key) (e : Entry) (h : s.get? key = some e) :
    Replays s (event key e .deleted) (s.erase key)
  | stateChanged (key : Key) (old e : Entry) (h : s.get? key = some old)
    (hsame : old.sameAddress e = true) :
    Replays s (event key e (.stateChanged e.up)) (s.insert key e)

/-- Events fit one after another and lead from one snapshot to another, with a property that every
snapshot on the way has. -/
inductive Leads (P : Snapshot → Prop) : Snapshot → List Event → Snapshot → Prop where
  | done {s : Snapshot} (h : P s) : Leads P s [] s
  | step {s t u : Snapshot} {e : Event} {es : List Event} (h : P s) (hr : Replays s e t)
    (rest : Leads P t es u) : Leads P s (e :: es) u

/-- The entries of one snapshot are entries of another one. -/
def PartOf (s t : Snapshot) : Prop := ∀ key e, s.get? key = some e → t.get? key = some e

/-- The entries of one snapshot are those of another one, up to whether interfaces are up. -/
def CoveredBy (s t : Snapshot) : Prop :=
  ∀ key e, s.get? key = some e → ∃ e', t.get? key = some e' ∧ e.sameAddress e' = true

section
variable {P : Snapshot → Prop} {s t u prev next : Snapshot} {es fs : List Event}

/-- The snapshot that events lead from has the property. -/
theorem Leads.holds (h : Leads P s es t) : P s := by
  cases h with
  | done h => exact h
  | step h => exact h

/-- So has the snapshot that events lead to. -/
theorem Leads.holds_last (h : Leads P s es t) : P t := by
  induction h with
  | done h => exact h
  | step _ _ _ ih => exact ih

/-- Events that lead on lead on from where others led. -/
theorem Leads.trans (h : Leads P s es t) (k : Leads P t fs u) : Leads P s (es ++ fs) u := by
  induction h with
  | done => exact k
  | step h hr _ ih => exact .step h hr (ih k)

theorem PartOf.refl (s : Snapshot) : s.PartOf s := fun _ _ h => h

/-- Without one of its entries a snapshot is a part of itself. -/
theorem PartOf.erase (h : s.PartOf t) (key : Key) : PartOf (s.erase key) t := by
  intro k e he
  rw [SortedTable.get?_erase_eq] at he
  split at he
  · cases he
  · exact h k e he

/-- A part of a snapshot is covered by it. -/
theorem PartOf.covered (h : s.PartOf t) : s.CoveredBy t := fun key e he =>
  ⟨e, h key e he, e.sameAddress_refl⟩

/-- With one more entry of another snapshot, a snapshot is still covered by that one. -/
theorem CoveredBy.insert (h : s.CoveredBy t) {key : Key} {e : Entry} (he : t.get? key = some e) :
    CoveredBy (s.insert key e) t := by
  intro k x hx
  rw [SortedTable.get?_insert_eq] at hx
  split at hx
  · next hk =>
    cases hx
    exact ⟨e, hk ▸ he, e.sameAddress_refl⟩
  · exact h k x hx

/-! ## The two halves of a difference -/

/-- Whether a snapshot has an entry like this one. -/
def keeps (next : Snapshot) (key : Key) (e : Entry) : Bool := (next.get? key).any e.sameAddress

theorem keeps_iff {key : Key} {e : Entry} :
    next.keeps key e = true ↔ ∃ e', next.get? key = some e' ∧ e.sameAddress e' = true := by
  unfold keeps
  cases next.get? key <;> simp

/-- The deletions lead to what the old snapshot has in common with the new one. -/
theorem leads_deletions (next : Snapshot) (hP : ∀ t, t.PartOf prev → P t)
    (es : List (Key × Entry)) (s : Snapshot) (hn : (es.map (·.1)).Nodup)
    (hes : ∀ e ∈ es, s.get? e.1 = some e.2) (hs : s.PartOf prev) :
    ∃ t, Leads P s (es.filterMap (deletion? next)) t ∧ ∀ key, t.get? key =
      if key ∈ es.map (·.1) then (s.get? key).filter (next.keeps key) else s.get? key := by
  induction es generalizing s with
  | nil => exact ⟨s, .done (hP s hs), fun key => by simp⟩
  | cons e es ih =>
    obtain ⟨hne, hn⟩ := List.nodup_cons.1 hn
    have he := hes e List.mem_cons_self
    by_cases hkept : next.keeps e.1 e.2 = true
    · -- the entry stays, and no event is about it
      obtain ⟨t, ht, hget⟩ := ih s hn (fun x hx => hes x (List.mem_cons_of_mem e hx)) hs
      have hd : deletion? next e = none := if_pos hkept
      refine ⟨t, by rwa [List.filterMap_cons_none hd], fun key => ?_⟩
      rw [hget, List.map_cons]
      by_cases hk : key = e.1
      · subst hk
        rw [if_neg hne, if_pos List.mem_cons_self, he, Option.filter_some_pos hkept]
      · simp only [List.mem_cons, hk, false_or]
    · have hes' : ∀ x ∈ es, SortedTable.get? (s.erase e.1) x.1 = some x.2 := by
        intro x hx
        rw [SortedTable.get?_erase_eq, if_neg, hes x (List.mem_cons_of_mem e hx)]
        intro hxe
        exact hne (List.mem_map.2 ⟨x, hx, hxe⟩)
      obtain ⟨t, ht, hget⟩ := ih (s.erase e.1) hn hes' (hs.erase e.1)
      refine ⟨t, ?_, fun key => ?_⟩
      · have hd : deletion? next e = some (event e.1 e.2 .deleted) := if_neg hkept
        rw [List.filterMap_cons_some hd]
        exact .step (hP s hs) (.deleted e.1 e.2 he) ht
      · rw [hget, List.map_cons, SortedTable.get?_erase_eq]
        by_cases hk : key = e.1
        · subst hk
          rw [if_neg hne, if_pos rfl, if_pos List.mem_cons_self, he,
            Option.filter_some_neg (Bool.eq_false_iff.2 hkept)]
        · simp only [List.mem_cons, hk, false_or, if_false]

/-- From what both snapshots have in common the other events lead to the new one. -/
theorem leads_arrivals (hP : ∀ t, t.CoveredBy next → P t) (es : List (Key × Entry)) (s : Snapshot)
    (hn : (es.map (·.1)).Nodup) (hes : ∀ e ∈ es, next.get? e.1 = some e.2)
    (hcommon : ∀ e ∈ es, s.get? e.1 = (prev.get? e.1).filter e.2.sameAddress)
    (hs : s.CoveredBy next) :
    ∃ t, Leads P s (es.filterMap (arrival? prev)) t ∧
      ∀ key, t.get? key = if key ∈ es.map (·.1) then next.get? key else s.get? key := by
  induction es generalizing s with
  | nil => exact ⟨s, .done (hP s hs), fun key => by simp⟩
  | cons e es ih =>
    obtain ⟨hne, hn⟩ := List.nodup_cons.1 hn
    have he := hes e List.mem_cons_self
    have hc := hcommon e List.mem_cons_self
    have hes' : ∀ x ∈ es, next.get? x.1 = some x.2 := fun x hx =>
      hes x (List.mem_cons_of_mem e hx)
    have hcommon' : ∀ x ∈ es, SortedTable.get? (s.insert e.1 e.2) x.1 =
        (prev.get? x.1).filter x.2.sameAddress := by
      intro x hx
      rw [SortedTable.get?_insert_eq, if_neg, hcommon x (List.mem_cons_of_mem e hx)]
      intro hxe
      exact hne (List.mem_map.2 ⟨x, hx, hxe⟩)
    obtain ⟨t, ht, hget⟩ := ih (s.insert e.1 e.2) hn hes' hcommon' (hs.insert he)
    have hget' : ∀ key, t.get? key =
        if key ∈ (e :: es).map (·.1) then next.get? key else s.get? key := by
      intro key
      rw [hget, List.map_cons, SortedTable.get?_insert_eq]
      by_cases hk : key = e.1
      · subst hk
        rw [if_neg hne, if_pos rfl, if_pos List.mem_cons_self, he]
      · simp only [List.mem_cons, hk, false_or, if_false]
    refine ⟨t, ?_, hget'⟩
    cases hold : (prev.get? e.1).filter e.2.sameAddress with
    | none =>
      have ha : arrival? prev e = some (event e.1 e.2 (.created e.2.up)) := by
        simp [arrival?, hold]
      rw [List.filterMap_cons_some ha]
      exact .step (hP s hs) (.created e.1 e.2 (hc.trans hold)) ht
    | some old =>
      have hsame : old.sameAddress e.2 = true := by
        rw [Entry.sameAddress_comm]
        exact (Option.filter_eq_some_iff.1 hold).2
      by_cases hup : old.up = e.2.up
      · -- the entry is the one that is there, and no event is about it
        have ha : arrival? prev e = none := by simp [arrival?, hold, hup]
        have heq : old = e.2 := Entry.eq_of_sameAddress hsame hup
        have hsame : s.insert e.1 e.2 = s := by
          refine SortedTable.ext_get? fun key => ?_
          rw [SortedTable.get?_insert_eq]
          split
          · next hk => rw [hk, hc, hold, heq]
          · rfl
        rw [List.filterMap_cons_none ha, ← hsame]
        exact ht
      · have ha : arrival? prev e = some (event e.1 e.2 (.stateChanged e.2.up)) := by
          simp [arrival?, hold, hup]
        rw [List.filterMap_cons_some ha]
        exact .step (hP s hs) (.stateChanged e.1 old e.2 (hc.trans hold) hsame) ht

/-- A difference leads from the old snapshot to the new one, with any property that parts of the old
one have and snapshots that are covered by the new one. -/
theorem leads_diff (hprev : ∀ t, t.PartOf prev → P t) (hnext : ∀ t, t.CoveredBy next → P t) :
    Leads P prev (diff prev next) next := by
  obtain ⟨mid, hmid, hcommon⟩ := leads_deletions next hprev prev.entries prev
    prev.keys_nodup (fun e he => SortedTable.get?_eq_some_iff.2 he) (.refl prev)
  have hget : ∀ key, mid.get? key =
      (prev.get? key).filter (next.keeps key) := by
    intro key
    rw [hcommon]
    split
    · rfl
    · next hk => rw [SortedTable.get?_eq_none_iff.2 hk]; rfl
  have hcovered : mid.CoveredBy next := by
    intro key e he
    rw [hget, Option.filter_eq_some_iff] at he
    exact keeps_iff.1 he.2
  have hcommon' : ∀ e ∈ next.entries,
      mid.get? e.1 = (prev.get? e.1).filter e.2.sameAddress := by
    intro e he
    have hnew : next.get? e.1 = some e.2 := SortedTable.get?_eq_some_iff.2 he
    rw [hget]
    congr 1
    funext old
    rw [keeps, hnew, Option.any_some, Entry.sameAddress_comm]
  obtain ⟨last, hlast, hget'⟩ := leads_arrivals hnext next.entries mid next.keys_nodup
    (fun e he => SortedTable.get?_eq_some_iff.2 he) hcommon' hcovered
  have heq : last = next := by
    refine SortedTable.ext_get? fun key => ?_
    rw [hget']
    split
    · rfl
    · next hk =>
      have hnone : next.get? key = none := SortedTable.get?_eq_none_iff.2 hk
      rw [hnone, hget, Option.filter_eq_none_iff]
      intro e _ hkept
      simp [keeps, hnone] at hkept
  exact heq ▸ hmid.trans hlast

end

end Snapshot

end DhcpRelay.Watch
