import DhcpRelay.Proofs.Watch.FirstListed
import DhcpRelay.Proofs.Watch.Replay
import DhcpRelay.Watch.Feed

/-!
# Regular snapshots

In a snapshot of a listing every entry is placed: its text is an address of the family and kind that
its key says (`Snapshot.placed_of_snapshot`). Where moreover no two interfaces have the same name
among the entries of one family and kind, the snapshot is regular, and so is every snapshot on the
way from one regular snapshot to another (`Snapshot.Regular.leads_diff`). The system gives no two
interfaces the same name; that the stages of a difference keep to this is due to the order of its
events.
-/

namespace DhcpRelay.Watch

/-- The family and the kind of an address. -/
def placeOf : IpAddress → Family × Kind
  | .v4 _ => (.v4, .main)
  | .v6 a => (.v6, if a.isLinkLocal then .linkLocal else .main)

/-- The text of an entry is an address of the family and kind of its key. -/
def Entry.Placed (key : Key) (e : Entry) : Prop :=
  ∃ c, Cidr.parse? e.address = some c ∧ placeOf c.address = (key.family, key.kind)

namespace Snapshot

/-- Every entry is placed. -/
def Placed (s : Snapshot) : Prop := ∀ key e, s.get? key = some e → e.Placed key

/-- Among the entries of one family and kind no two interfaces have the same name. -/
def NamesDistinct (s : Snapshot) : Prop :=
  ∀ family kind i j e f, s.get? ⟨family, i, kind⟩ = some e → s.get? ⟨family, j, kind⟩ = some f →
    e.name = f.name → i = j

/-- Every entry is placed and names are distinct, as in a snapshot of the system. -/
structure Regular (s : Snapshot) : Prop where
  placed : s.Placed
  names : s.NamesDistinct

section
variable {s t prev next : Snapshot}

/-- Names are distinct if they are among the entries as they are listed. -/
theorem namesDistinct_iff : s.NamesDistinct ↔ ∀ a ∈ s.entries, ∀ b ∈ s.entries,
    a.1.family = b.1.family → a.1.kind = b.1.kind → a.2.name = b.2.name →
      a.1.index = b.1.index := by
  constructor
  · rintro h ⟨⟨f, i, k⟩, e⟩ ha ⟨⟨g, j, n⟩, x⟩ hb hf hk hname
    obtain rfl : f = g := hf
    obtain rfl : k = n := hk
    exact h f k i j e x (SortedTable.get?_eq_some_iff.2 ha)
      (SortedTable.get?_eq_some_iff.2 hb) hname
  · intro h family kind i j e f he hf hname
    exact h _ (SortedTable.get?_eq_some_iff.1 he) _ (SortedTable.get?_eq_some_iff.1 hf)
      rfl rfl hname

instance : Decidable s.NamesDistinct := decidable_of_iff _ namesDistinct_iff.symm

/-! ## Snapshots of listings -/

/-- What a text describes is an address of the family and kind. -/
theorem exists_of_describes {word text : String} {family : Family} {kind : Kind}
    (h : Describes word text family kind) :
    ∃ c, Cidr.parse? text = some c ∧ placeOf c.address = (family, kind) := by
  cases h with
  | v4 hc => exact ⟨_, hc, rfl⟩
  | linkLocal hc _ hblock =>
    exact ⟨_, hc, by rw [placeOf, if_pos (V6Address.isLinkLocal_iff.2 hblock)]⟩
  | main hc _ hblock =>
    exact ⟨_, hc, by rw [placeOf, if_neg (mt V6Address.isLinkLocal_iff.1 hblock)]⟩

/-- The entries of the snapshot of a listing are placed, as each comes from a record. -/
theorem placed_ofLinks (links : List Link) : (ofLinks links).Placed := by
  intro key e h
  rw [get?_ofLinks] at h
  obtain ⟨r, -, hr⟩ := List.exists_of_findSome?_eq_some h
  exact exists_of_describes (entry?_eq_some_iff.1 (entryAt?_eq_some_iff.1 hr)).1.describes

/-- The entries of a snapshot that the listing command gives are placed. -/
theorem placed_of_snapshot {answer : PollAnswer} (h : answer.snapshot = .ok s) : s.Placed := by
  unfold PollAnswer.snapshot at h
  split at h
  · cases h
  · split at h
    · unfold readListing at h
      split at h
      · next hs =>
        cases h
        obtain ⟨links, -, rfl⟩ := Option.map_eq_some_iff.1 hs
        exact placed_ofLinks links
      · cases h
    · cases h

/-! ## Stages of a difference -/

/-- The snapshot without entries is regular. -/
theorem Regular.empty : Regular ∅ where
  placed key e h := by simp at h
  names family kind i j e f h := by simp at h

/-- The entries of a snapshot that is covered by one with placed entries are placed. -/
theorem Placed.of_covered (h : t.Placed) (hs : s.CoveredBy t) : s.Placed := by
  intro key e he
  obtain ⟨e', he', hsame⟩ := hs key e he
  have hplaced := h key e' he'
  rwa [Entry.Placed, ← (Entry.sameAddress_iff.1 hsame).2] at hplaced

/-- A snapshot that is covered by a regular one is regular. -/
theorem Regular.of_covered (h : t.Regular) (hs : s.CoveredBy t) : s.Regular where
  placed := h.placed.of_covered hs
  names family kind i j e f he hf hname := by
    obtain ⟨e', he', hsame⟩ := hs _ e he
    obtain ⟨f', hf', hsame'⟩ := hs _ f hf
    refine h.names family kind i j e' f' he' hf' ?_
    rw [← (Entry.sameAddress_iff.1 hsame).1, ← (Entry.sameAddress_iff.1 hsame').1, hname]

/-- A difference leads from one snapshot with placed entries to another, all stages having such. -/
theorem Placed.leads_diff (hprev : prev.Placed) (hnext : next.Placed) :
    Leads Placed prev (diff prev next) next :=
  Snapshot.leads_diff (fun _ ht => hprev.of_covered ht.covered) fun _ ht => hnext.of_covered ht

/-- A difference leads from one regular snapshot to another, all stages being regular. -/
theorem Regular.leads_diff (hprev : prev.Regular) (hnext : next.Regular) :
    Leads Regular prev (diff prev next) next :=
  Snapshot.leads_diff (fun _ ht => hprev.of_covered ht.covered) fun _ ht => hnext.of_covered ht

end

end Snapshot

end DhcpRelay.Watch
