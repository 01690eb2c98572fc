import DhcpRelay.Text.Numeral

/-!
# JSON values

A value keeps what its text said and no more: numbers stay as they were written, members keep
their order and their repetitions, and a string is `none` when an escape in it names half of a
surrogate pair, so that it is well-formed as text and yet spells no string. What a record makes of
such a value is decided where the record is read (`DhcpRelay.Json.Record`).
-/

namespace DhcpRelay

/-- A JSON value. -/
inductive Json where
  | null
  | bool (value : Bool)
  /-- A number, as written. -/
  | number (text : String)
  /-- A string; `none` if it holds half of a surrogate pair. -/
  | string (value : Option String)
  | array (items : List Json)
  /-- An object, its members in written order. -/
  | object (members : List (Option String × Json))
  deriving Inhabited

namespace Json

/-- The string value of a text. -/
def str (s : String) : Json := .string (some s)

/-- The number value of a natural number. -/
def nat (n : Nat) : Json := .number (Numeral.decimal n)

/-- The number value of an integer. -/
def int (n : Int) : Json := .number (Numeral.signedDecimal n)

/-- The object with the given members. -/
def obj (members : List (String × Json)) : Json :=
  .object (members.map fun (name, value) => (some name, value))

/-- `null` for a value that is absent. -/
def ofOption {α : Type} (encode : α → Json) : Option α → Json
  | some a => encode a
  | none => .null

/-- The array of the encoded items. -/
def ofList {α : Type} (encode : α → Json) (items : List α) : Json := .array (items.map encode)

end Json

end DhcpRelay
