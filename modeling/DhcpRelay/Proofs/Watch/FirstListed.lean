import DhcpRelay.Proofs.Address.Blocks
import DhcpRelay.Proofs.SortedTable
import DhcpRelay.Watch.Snapshot

/-!
# The first that is listed counts

A listing is, in its order, a sequence of address records, each with what its link says
(`records`). `Record.Tells` says which key a record is about and with which text, if it is about
any; a record that cannot be read, and one of a loopback link, tells nothing. The snapshot has at
each key what the first record says that tells the key (`Snapshot.get?_ofLinks`).

Building adds the entries of the records one after another, and an entry is added only where there
is none (`Snapshot.get?_addEntry`). What tells nothing adds nothing, so the records that tell
something, in their order, decide the snapshot.
-/

namespace DhcpRelay.Watch

/-! ## Records -/

/-- A listed address and what its link says. -/
structure Record where
  index : Int
  name : String
  flags : List String
  listed : ListedAddress
  deriving DecidableEq, Repr

/-- The records of a link, in the order of its addresses. -/
def Link.records (l : Link) : List Record := l.addresses.map (⟨l.index, l.name, l.flags, ·⟩)

/-- The records of a listing, in the order of its links. -/
def records (links : List Link) : List Record := links.flatMap Link.records

/-- A text is an address with a prefix length, in the family that a word names. The kind of an
IPv6 address is that of the block fe80::/10 or the other one. -/
inductive Describes (word text : String) : Family → Kind → Prop where
  | v4 {a : V4Address} {n : Nat} (parses : Cidr.parse? text = some ⟨.v4 a, n⟩)
      (named : word = "inet") : Describes word text .v4 .main
  | linkLocal {a : V6Address} {n : Nat} (parses : Cidr.parse? text = some ⟨.v6 a, n⟩)
      (named : word = "inet6") (block : a.InBlock V6Address.linkLocalBase 10) :
      Describes word text .v6 .linkLocal
  | main {a : V6Address} {n : Nat} (parses : Cidr.parse? text = some ⟨.v6 a, n⟩)
      (named : word = "inet6") (block : ¬ a.InBlock V6Address.linkLocalBase 10) :
      Describes word text .v6 .main

namespace Record

/-- A record is about a key, with a text: its link is no loopback and has the index, the address and
the prefix length are given and make up the text, and the text is of the family and the kind. -/
structure Tells (r : Record) (key : Key) (text : String) : Prop where
  noLoopback : "LOOPBACK" ∉ r.flags
  index : r.index = key.index
  written : ∃ address n, r.listed.address = some address ∧ r.listed.prefixLen = some n ∧
    text = address ++ "/" ++ Numeral.decimal n
  describes : Describes r.listed.family text key.family key.kind

/-- The link of a record, as if it had no addresses. -/
def link (r : Record) : Link := ⟨r.index, r.name, r.flags, []⟩

/-- The key and the entry of a record, if it tells any. -/
def entry? (r : Record) : Option (Key × Entry) :=
  if r.link.isLoopback then none else Snapshot.listedEntry r.link r.listed

/-- What a record says about a key. -/
def entryAt? (key : Key) (r : Record) : Option Entry :=
  r.entry?.bind fun e => if e.1 = key then some e.2 else none

/-- A record tells something. -/
def Counts (r : Record) : Prop := ∃ key text, r.Tells key text

theorem link_isLoopback {r : Record} : r.link.isLoopback = true ↔ "LOOPBACK" ∈ r.flags := by
  simp [Link.isLoopback, link]

theorem link_isUp {r : Record} : r.link.isUp = true ↔ "UP" ∈ r.flags ∧ "LOWER_UP" ∈ r.flags := by
  simp [Link.isUp, link]

end Record

namespace Snapshot

section
variable {s : Snapshot} {r : Record} {key : Key} {e : Entry}

/-- The place of an address is read off its text and the word for its family. -/
theorem place?_eq_some_iff {word text : String} {family : Family} {kind : Kind} :
    place? word text = some (family, kind) ↔ Describes word text family kind := by
  constructor
  · intro h
    unfold place? at h
    split at h
    · next a n hc =>
      split at h
      · next hword =>
        cases h
        exact .v4 hc hword
      · cases h
    · next a n hc =>
      split at h
      · next hword =>
        cases h
        split
        · next hlocal => exact .linkLocal hc hword (V6Address.isLinkLocal_iff.1 hlocal)
        · next hlocal => exact .main hc hword (mt V6Address.isLinkLocal_iff.2 hlocal)
      · cases h
    · cases h
  · intro h
    unfold place?
    cases h with
    | v4 hc hword =>
      rw [hc]
      exact if_pos hword
    | linkLocal hc hword hblock =>
      rw [hc]
      simp only [if_pos hword, if_pos (V6Address.isLinkLocal_iff.2 hblock)]
    | main hc hword hblock =>
      rw [hc]
      simp only [if_pos hword, if_neg (mt V6Address.isLinkLocal_iff.1 hblock)]

/-- A text is put together from an address and a prefix length. -/
theorem cidrText?_eq_some_iff {a : ListedAddress} {text : String} :
    cidrText? a = some text ↔ ∃ address n, a.address = some address ∧ a.prefixLen = some n ∧
      text = address ++ "/" ++ Numeral.decimal n := by
  unfold cidrText?
  split
  · next address n haddress hn => simp [haddress, hn, eq_comm]
  · next hmissing =>
    simp only [reduceCtorEq, false_iff]
    rintro ⟨address, n, haddress, hn, -⟩
    exact hmissing address n haddress hn

/-- A record has an entry for each key that it tells, with the name of its link, the text, and
whether the link is up. -/
theorem entry?_eq_some_iff : r.entry? = some (key, e) ↔
    r.Tells key e.address ∧ e.name = r.name ∧
      (e.up = true ↔ "UP" ∈ r.flags ∧ "LOWER_UP" ∈ r.flags) := by
  obtain ⟨family, index, kind⟩ := key
  obtain ⟨name, text, up⟩ := e
  simp only [Record.entry?, listedEntry]
  constructor
  · intro h
    split at h
    · cases h
    · next hno =>
      obtain ⟨text', htext, h⟩ := Option.bind_eq_some_iff.1 h
      obtain ⟨⟨family', kind'⟩, hplace, h⟩ := Option.bind_eq_some_iff.1 h
      cases h
      exact ⟨⟨mt Record.link_isLoopback.2 hno, rfl, cidrText?_eq_some_iff.1 htext,
        place?_eq_some_iff.1 hplace⟩, rfl, Record.link_isUp⟩
  · rintro ⟨⟨hno, rfl, hwritten, hdescribes⟩, rfl, hflags⟩
    obtain rfl : r.link.isUp = up := Bool.eq_iff_iff.2 (Record.link_isUp.trans hflags.symm)
    rw [if_neg (mt Record.link_isLoopback.1 hno), cidrText?_eq_some_iff.2 hwritten]
    simp only [Option.bind_eq_bind, Option.bind_some, place?_eq_some_iff.2 hdescribes]
    rfl

/-- What a record says about a key is its entry, if that is the key's. -/
theorem entryAt?_eq_some_iff : r.entryAt? key = some e ↔ r.entry? = some (key, e) := by
  unfold Record.entryAt?
  cases r.entry? with
  | none => simp
  | some x =>
    obtain ⟨k, y⟩ := x
    by_cases hk : k = key <;> simp [hk]

/-- A record has something to say about a key exactly if it tells the key. -/
theorem isSome_entryAt?_iff : (r.entryAt? key).isSome = true ↔ ∃ text, r.Tells key text := by
  rw [Option.isSome_iff_exists]
  constructor
  · rintro ⟨e, h⟩
    exact ⟨e.address, (entry?_eq_some_iff.1 (entryAt?_eq_some_iff.1 h)).1⟩
  · rintro ⟨text, h⟩
    exact ⟨⟨r.name, text, r.link.isUp⟩, entryAt?_eq_some_iff.2 <|
      entry?_eq_some_iff.2 ⟨h, rfl, Record.link_isUp⟩⟩

/-- A record tells something exactly if it has an entry. -/
theorem counts_iff : r.Counts ↔ r.entry?.isSome = true := by
  simp only [Record.Counts, ← isSome_entryAt?_iff, Option.isSome_iff_exists, entryAt?_eq_some_iff,
    Prod.exists]

instance : Decidable r.Counts := decidable_of_iff _ counts_iff.symm

/-! ## Building -/

/-- Adding an entry gives a key its value if it is the entry's and had none. -/
theorem get?_addEntry (s : Snapshot) (e : Key × Entry) (key : Key) :
    (s.addEntry e).get? key = (s.get? key).or (if e.1 = key then some e.2 else none) := by
  unfold addEntry SortedTable.contains
  by_cases hk : e.1 = key
  · subst hk
    cases hs : s.get? e.1 with
    | none => simp
    | some x => simp [hs]
  · rw [if_neg hk, Option.or_none]
    split
    · rfl
    · rw [SortedTable.get?_insert_eq, if_neg (Ne.symm hk)]

/-- Adding the entries of records gives a key what the first of them says about it, unless it has a
value. -/
theorem get?_addEntries (s : Snapshot) (rs : List Record) (key : Key) :
    ((rs.filterMap Record.entry?).foldl addEntry s).get? key =
      (s.get? key).or (rs.findSome? (Record.entryAt? key)) := by
  induction rs generalizing s with
  | nil => simp
  | cons r rs ih =>
    rw [List.findSome?_cons, Record.entryAt?]
    cases hr : r.entry? with
    | none => rw [List.filterMap_cons_none hr, ih, Option.bind_none]
    | some e =>
      rw [List.filterMap_cons_some hr, List.foldl_cons, ih, get?_addEntry, Option.or_assoc,
        Option.bind_some]
      by_cases hk : e.1 = key <;> simp [hk]

/-- A link adds the entries of its records. -/
theorem addLink_eq (s : Snapshot) (link : Link) :
    s.addLink link = (link.records.filterMap Record.entry?).foldl addEntry s := by
  unfold addLink
  split
  · next hloop =>
    have hnone : link.records.filterMap Record.entry? = [] := by
      refine List.filterMap_eq_nil_iff.2 fun r hr => ?_
      obtain ⟨a, -, rfl⟩ := List.mem_map.1 hr
      exact if_pos hloop
    rw [hnone, List.foldl_nil]
  · next hloop =>
    have hentries : link.records.filterMap Record.entry? =
        link.addresses.filterMap (listedEntry link) := by
      rw [Link.records, List.filterMap_map]
      exact List.filterMap_congr fun a _ => if_neg hloop
    rw [hentries]

/-- A listing adds the entries of its records. -/
theorem ofLinks_eq (links : List Link) :
    ofLinks links = ((records links).filterMap Record.entry?).foldl addEntry ∅ := by
  rw [records, List.filterMap_flatMap, List.foldl_flatMap]
  exact congrArg (fun f => links.foldl f ∅) (funext₂ addLink_eq)

/-- The snapshot of a listing has at a key what the first record says that says anything about
it. -/
theorem get?_ofLinks (links : List Link) (key : Key) :
    (ofLinks links).get? key = (records links).findSome? (Record.entryAt? key) := by
  rw [ofLinks_eq, get?_addEntries, SortedTable.get?_empty, Option.none_or]

/-- A snapshot is decided by the records that tell something. -/
theorem ofLinks_congr {links others : List Link}
    (h : (records others).filter (·.Counts) = (records links).filter (·.Counts)) :
    ofLinks others = ofLinks links := by
  have hentries : ∀ rs : List Record,
      rs.filterMap Record.entry? = (rs.filter (·.Counts)).filterMap Record.entry? := by
    intro rs
    rw [List.filterMap_filter]
    refine List.filterMap_congr fun r _ => ?_
    split
    · rfl
    · next hr =>
      rw [decide_eq_true_iff, counts_iff, Bool.not_eq_true, Option.isSome_eq_false_iff] at hr
      exact Option.isNone_iff_eq_none.1 hr
  rw [ofLinks_eq, ofLinks_eq, hentries, h, ← hentries]

/-- The snapshot of a listing has an entry at a key exactly if some record tells the key. The entry
is the first such record's: it has the name of its link, the text, and is up exactly if the flags of
the link have both `UP` and `LOWER_UP`. Records that tell nothing neither hide nor change one
that does: listings that agree on the records that tell something have the same snapshot. -/
theorem ofLinks_first_listed (links : List Link) :
    (∀ key, (∃ e, (ofLinks links).get? key = some e) ↔
      ∃ r ∈ records links, ∃ text, r.Tells key text) ∧
    (∀ key e, (ofLinks links).get? key = some e ↔
      ∃ before r after, records links = before ++ r :: after ∧
        (∀ earlier ∈ before, ∀ text, ¬ earlier.Tells key text) ∧
        r.Tells key e.address ∧ e.name = r.name ∧
        (e.up = true ↔ "UP" ∈ r.flags ∧ "LOWER_UP" ∈ r.flags)) ∧
    ∀ others, (records others).filter (·.Counts) = (records links).filter (·.Counts) →
      ofLinks others = ofLinks links := by
  refine ⟨fun key => ?_, fun key e => ?_, fun others h => ofLinks_congr h⟩
  · rw [← Option.isSome_iff_exists, get?_ofLinks, List.findSome?_isSome_iff]
    simp only [isSome_entryAt?_iff]
  · have hentry : ∀ r : Record, r.entryAt? key = some e ↔ r.Tells key e.address ∧
        e.name = r.name ∧ (e.up = true ↔ "UP" ∈ r.flags ∧ "LOWER_UP" ∈ r.flags) :=
      fun r => entryAt?_eq_some_iff.trans entry?_eq_some_iff
    have hsilent : ∀ r : Record, r.entryAt? key = none ↔ ∀ text, ¬ r.Tells key text := by
      intro r
      rw [← not_exists, ← isSome_entryAt?_iff, Option.not_isSome_iff_eq_none]
    rw [get?_ofLinks, List.findSome?_eq_some_iff]
    simp only [hentry, hsilent]
    constructor
    · rintro ⟨before, r, after, hsplit, ⟨htells, hname, hup⟩, hfirst⟩
      exact ⟨before, r, after, hsplit, hfirst, htells, hname, hup⟩
    · rintro ⟨before, r, after, hsplit, hfirst, htells, hname, hup⟩
      exact ⟨before, r, after, hsplit, ⟨htells, hname, hup⟩, hfirst⟩

/-- Neither an address in the wrong family nor one with too long a prefix takes the place of the
first that can be read, which is that of the second link with the index. -/
example : (ofLinks [
    ⟨2, "eth0", ["UP"], [⟨"inet6", some "10.0.0.1", some 8⟩, ⟨"inet", some "10.0.0.2", some 33⟩]⟩,
    ⟨2, "eth1", ["LOWER_UP", "UP"], [⟨"inet", some "10.0.0.3", some 24⟩]⟩]).get? ⟨.v4, 2, .main⟩ =
      some ⟨"eth1", "10.0.0.3/24", true⟩ := by
  decide +kernel

end

end Snapshot

end DhcpRelay.Watch
