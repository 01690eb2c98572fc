import DhcpRelay.Family

/-!
# Interface events

What happened to an address of an interface, as the watcher of the interface listing reports it and
the manager takes it. The address is still text here: whoever takes the event decides what a text
that is no address means.
-/

namespace DhcpRelay.Interface

open Json

/-- What happened. -/
inductive Change where
  | created (up : Bool)
  | deleted
  | stateChanged (up : Bool)
  deriving DecidableEq, Repr

/-- A change of one address of one interface. -/
structure Event where
  family : Family
  index : Int
  name : String
  /-- The address with its prefix length; events about the interface as a whole have none. -/
  address : Option String
  change : Change
  deriving DecidableEq, Repr

namespace Change

/-- The change in JSON. -/
def toJson : Change → Json
  | .created up => .obj [("type", .str "created"), ("up", .bool up)]
  | .deleted => .obj [("type", .str "deleted")]
  | .stateChanged up => .obj [("type", .str "state_changed"), ("up", .bool up)]

/-- The change with the given type name and state. -/
def ofType? (type : String) (up : Option Json) : Option Change :=
  if type = "created" then (required? bool? up).map .created
  else if type = "deleted" then some .deleted
  else if type = "state_changed" then (required? bool? up).map .stateChanged
  else none

/-- Reads a change: an object with its type and the state, or a list of just these. -/
def ofJson? : Json → Option Change
  | .object members => do
    match ← (Json.object members).fields? ["type", "up"] with
    | [type, up] => ofType? (← required? string? type) up
    | _ => none
  | .array (.string (some type) :: rest) =>
    match rest with
    | [] => if type = "deleted" then some .deleted else none
    | [up] => if type = "deleted" then none else ofType? type (some up)
    | _ => none
  | _ => none

end Change

namespace Event

/-- The event in JSON. -/
def toJson (e : Event) : Json :=
  .obj [("family", e.family.toJson), ("index", .int e.index), ("name", .str e.name),
    ("address", .ofOption .str e.address), ("kind", e.change.toJson)]

/-- Reads an event. -/
def ofJson? (v : Json) : Option Event := do
  match ← v.fields? ["family", "index", "name", "address", "kind"] with
  | [family, index, name, address, kind] =>
    let family ← required? Family.ofJson? family
    let index ← required? (integer? Int32.minValue.toInt Int32.maxValue.toInt) index
    let name ← required? string? name
    let address ← orElse? none (nullable? string?) address
    let change ← required? Change.ofJson? kind
    return ⟨family, index, name, address, change⟩
  | _ => none

end Event

end DhcpRelay.Interface
