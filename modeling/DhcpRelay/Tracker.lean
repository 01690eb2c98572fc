import DhcpRelay.Config.Basic
import DhcpRelay.Interface.PropertyTable

/-!
# The activation tracker

For one family the tracker holds what is configured and what interfaces there are, and from both
the set of active interfaces. An index is active exactly when it holds a property that is up, the
interface's record is enabled, and the global record is enabled (`Tracker.configAt?`). The set is
not computed anew each time: every operation reevaluates the indices it may have changed.

IPv6 interfaces have two kinds of addresses. Link-local ones stand in a table of their own, which
serves upstream interfaces; activation looks at the main table only.
-/

namespace DhcpRelay

open Interface (Property PropertyTable)

/-- Configuration, interfaces and active interfaces of one family. -/
structure Tracker where
  /-- The interfaces by their main address. -/
  props : PropertyTable := {}
  /-- The interfaces by their link-local address; IPv6 only. -/
  linkLocal : PropertyTable := {}
  global : Option GlobalConfig := none
  /-- The interface records by name. -/
  configs : SortedTable String InterfaceConfig := ∅
  /-- The active indices, each with its interface's record. -/
  active : SortedTable Int InterfaceConfig := ∅
  deriving DecidableEq

/-- An active interface: its property and its record. -/
structure ActiveInterface where
  property : Property
  config : InterfaceConfig
  deriving DecidableEq, Repr

namespace Tracker

/-! ## Activation -/

/-- Whether the family is relayed at all. -/
def globalEnabled (t : Tracker) : Bool := t.global.any (·.enable)

/-- The record with which an index is active by what the tracker holds now. -/
def configAt? (t : Tracker) (index : Int) : Option InterfaceConfig := do
  let p ← (t.props.get? index).filter (·.up)
  (t.configs.get? p.name).filter fun c => c.enable && t.globalEnabled

/-- Brings the active set up to date at one index. -/
def reevaluate (t : Tracker) (index : Int) : Tracker :=
  match t.configAt? index with
  | some c => { t with active := t.active.insert index c }
  | none => { t with active := t.active.erase index }

/-- Computes the active set anew. -/
def rebuild (t : Tracker) : Tracker :=
  t.props.indices.foldl reevaluate { t with active := ∅ }

/-- The active indices, in increasing order. -/
def activeIndices (t : Tracker) : List Int := t.active.keys

/-- The record of an active index. -/
def activeConfig? (t : Tracker) (index : Int) : Option InterfaceConfig := t.active.get? index

/-- The active interface at an index. -/
def activeAt? (t : Tracker) (index : Int) : Option ActiveInterface := do
  let config ← t.active.get? index
  let property ← t.props.get? index
  return ⟨property, config⟩

/-- The active interface of a name. -/
def activeNamed? (t : Tracker) (name : String) : Option ActiveInterface :=
  t.props.index? name >>= t.activeAt?

/-- The number of relays that a message may have passed, as it is enforced. -/
def hopLimit (t : Tracker) : UInt8 :=
  (t.global.map GlobalConfig.effectiveHopLimit).getD maxHopCount

/-! ## Configuration -/

/-- Stores the global record. -/
def setGlobal (t : Tracker) (c : GlobalConfig) : Tracker := { t with global := some c }.rebuild

/-- Removes the global record. -/
def clearGlobal (t : Tracker) : Tracker := { t with global := none, active := ∅ }

/-- Reevaluates the index of a name, if the name is known. -/
def reevaluateName (t : Tracker) (name : String) : Tracker :=
  match t.props.index? name with
  | some index => t.reevaluate index
  | none => t

/-- Stores the record of an interface. -/
def setInterface (t : Tracker) (c : InterfaceConfig) : Tracker :=
  { t with configs := t.configs.insert c.name c }.reevaluateName c.name

/-- Removes the record of an interface. -/
def removeInterface (t : Tracker) (name : String) : Tracker :=
  { t with configs := t.configs.erase name }.reevaluateName name

/-- The interface records, in the order of their names. -/
def configured (t : Tracker) : List InterfaceConfig := t.configs.values

/-! ## Interfaces -/

/-- Which tables a change of an interface concerns. -/
inductive Reach where
  | main
  | linkLocal
  | both
  deriving DecidableEq, Repr

/-- The tables that a change of an address concerns. IPv6 link-local addresses have their own
table, and a change of an IPv6 interface without an address concerns both. -/
def reach : Family → Option IpAddress → Reach
  | .v4, _ => .main
  | .v6, some a => if a.isLinkLocalV6 then .linkLocal else .main
  | .v6, none => .both

/-- An address appeared. -/
def interfaceCreated (t : Tracker) (family : Family) (p : Property) : Tracker :=
  let (evicted, t) := match reach family p.address with
    | .linkLocal =>
      let (evicted, linkLocal) := t.linkLocal.upsert p
      (evicted, { t with linkLocal })
    | _ =>
      let (evicted, props) := t.props.upsert p
      (evicted, { t with props })
  let t := match evicted with
    | some old => t.reevaluate old
    | none => t
  t.reevaluate p.index

/-- Changes the tables that are concerned. -/
def onTables (t : Tracker) (r : Reach) (f : PropertyTable → PropertyTable) : Tracker :=
  match r with
  | .main => { t with props := f t.props }
  | .linkLocal => { t with linkLocal := f t.linkLocal }
  | .both => { t with props := f t.props, linkLocal := f t.linkLocal }

/-- An address disappeared. -/
def interfaceDeleted (t : Tracker) (family : Family) (index : Int) (address : Option IpAddress) :
    Tracker :=
  (t.onTables (reach family address) fun table => (table.remove index).2).reevaluate index

/-- An interface went up or down. -/
def interfaceStateChanged (t : Tracker) (family : Family) (index : Int) (up : Bool)
    (address : Option IpAddress) : Tracker :=
  (t.onTables (reach family address) fun table => (table.setUp index up).2).reevaluate index

end Tracker

end DhcpRelay
