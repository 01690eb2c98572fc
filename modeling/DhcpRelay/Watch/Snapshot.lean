import DhcpRelay.Address.Cidr
import DhcpRelay.Interface.Event
import DhcpRelay.SortedTable
import DhcpRelay.Watch.Listing

/-!
# Snapshots

A snapshot is what one reading of the interface listing says, one entry for each family, interface
and kind of address. Link-local IPv6 addresses are a kind of their own. Of several addresses of one
kind the first that is listed counts; a loopback link and an address that cannot be read do not.

`Snapshot.diff` turns two snapshots into the events that lead from one to the other. A change of
name or address is a deletion followed by a creation, and all deletions come first, so that a name
that moves between interfaces is free before it is taken.
-/

namespace DhcpRelay.Watch

open Std
open Interface (Event Change)

/-- The kind of an address: each kind has its own entries. -/
inductive Kind where
  /-- IPv4 addresses, and IPv6 addresses that are not link-local. -/
  | main
  | linkLocal
  deriving DecidableEq, Repr

/-- What an entry is about. -/
structure Key where
  family : Family
  index : Int
  kind : Kind
  deriving DecidableEq, Repr

namespace Key

/-- The place of a family among the families. -/
def familyRank : Family → Nat
  | .v4 => 0
  | .v6 => 1

/-- The place of a kind among the kinds. -/
def kindRank : Kind → Nat
  | .main => 0
  | .linkLocal => 1

/-- Keys are ordered by family, then index, then kind. -/
def order : Key → Key → Ordering :=
  compareLex (compareOn fun k => familyRank k.family)
    (compareLex (compareOn fun k => k.index) (compareOn fun k => kindRank k.kind))

instance : Ord Key := ⟨order⟩

instance : TransOrd Key :=
  inferInstanceAs (TransCmp (compareLex (compareOn fun k : Key => familyRank k.family)
    (compareLex (compareOn fun k : Key => k.index) (compareOn fun k : Key => kindRank k.kind))))

theorem familyRank_injective {a b : Family} (h : familyRank a = familyRank b) : a = b := by
  cases a <;> cases b <;> first | rfl | cases h

theorem kindRank_injective {a b : Kind} (h : kindRank a = kindRank b) : a = b := by
  cases a <;> cases b <;> first | rfl | cases h

instance : LawfulEqOrd Key where
  eq_of_compare {a b} h := by
    have h : order a b = .eq := h
    simp only [order, compareLex_eq_eq, compareOn, LawfulEqCmp.compare_eq_iff_eq] at h
    obtain ⟨hf, hi, hk⟩ := h
    cases a; cases b
    exact congr (congr (congrArg mk (familyRank_injective hf)) hi) (kindRank_injective hk)

end Key

/-- What a snapshot says about one address. -/
structure Entry where
  name : String
  /-- The address with its prefix length, in text. -/
  address : String
  up : Bool
  deriving DecidableEq, Repr

/-- Whether two entries are about the same address of the same interface. -/
def Entry.sameAddress (a b : Entry) : Bool := a.name == b.name && a.address == b.address

/-- The entries of one reading of the listing. -/
abbrev Snapshot := SortedTable Key Entry

namespace Snapshot

/-! ## Building -/

/-- The text of a listed address with its prefix length, if both are given. -/
def cidrText? (a : ListedAddress) : Option String :=
  match a.address, a.prefixLen with
  | some address, some n => some (address ++ "/" ++ Numeral.decimal n)
  | _, _ => none

/-- The family and kind of an address, if the listing's word for the family agrees with its text. -/
def place? (familyWord cidr : String) : Option (Family × Kind) :=
  match Cidr.parse? cidr with
  | some ⟨.v4 _, _⟩ => if familyWord = "inet" then some (.v4, .main) else none
  | some ⟨.v6 a, _⟩ =>
    if familyWord = "inet6" then some (.v6, if a.isLinkLocal then .linkLocal else .main) else none
  | none => none

/-- The key and the entry of a listed address, if it can be read. -/
def listedEntry (link : Link) (a : ListedAddress) : Option (Key × Entry) := do
  let cidr ← cidrText? a
  let (family, kind) ← place? a.family cidr
  return (⟨family, link.index, kind⟩, ⟨link.name, cidr, link.isUp⟩)

/-- Adds an entry unless its key has one. -/
def addEntry (s : Snapshot) (e : Key × Entry) : Snapshot :=
  if s.contains e.1 then s else s.insert e.1 e.2

/-- Adds a link. -/
def addLink (s : Snapshot) (link : Link) : Snapshot :=
  if link.isLoopback then s else (link.addresses.filterMap (listedEntry link)).foldl addEntry s

/-- The snapshot of a listing. -/
def ofLinks (links : List Link) : Snapshot := links.foldl addLink ∅

/-- The snapshot of a listing in text. -/
def parse? (text : String) : Option Snapshot := (Link.parseAll? text).map ofLinks

/-! ## Differences -/

/-- The event about the address of an entry. -/
def event (key : Key) (e : Entry) (change : Change) : Event :=
  { family := key.family, index := key.index, name := e.name, address := some e.address, change }

/-- The deletion that an old entry leads to: it is gone, or another address took its place. -/
def deletion? (next : Snapshot) (old : Key × Entry) : Option Event :=
  if (next.get? old.1).any (Entry.sameAddress old.2) then none
  else some (event old.1 old.2 .deleted)

/-- The event that a new entry leads to: its address is new, or its interface went up or down. -/
def arrival? (prev : Snapshot) (new : Key × Entry) : Option Event :=
  match (prev.get? new.1).filter (Entry.sameAddress new.2) with
  | none => some (event new.1 new.2 (.created new.2.up))
  | some old =>
    if old.up = new.2.up then none else some (event new.1 new.2 (.stateChanged new.2.up))

/-- The events that lead from one snapshot to another: deletions in key order, then the rest in key
order. -/
def diff (prev next : Snapshot) : List Event :=
  prev.entries.filterMap (deletion? next) ++ next.entries.filterMap (arrival? prev)

end Snapshot

end DhcpRelay.Watch
