import DhcpRelay.Json.Token

/-!
# Reading JSON

The tokens of a text are put together by a machine whose state holds the containers that are still
open, so nesting may be of any depth. The whole text has to be one value.
-/

namespace DhcpRelay.Json

/-- A container that is still open. Items and members stand last first. -/
inductive Frame where
  /-- An array, with the items before the value that is being read. -/
  | array (items : List Json)
  /-- An object, with the members before the value that is being read, and its name. -/
  | object (members : List (Option String × Json)) (name : Option String)

/-- What the next token has to be. -/
inductive Reader where
  | value (within : List Frame)
  /-- The first item of an array, or its end. -/
  | firstItem (within : List Frame)
  /-- The first member's name of an object, or its end. -/
  | firstName (within : List Frame)
  /-- The name of a further member. -/
  | furtherName (members : List (Option String × Json)) (within : List Frame)
  | colon (members : List (Option String × Json)) (name : Option String) (within : List Frame)
  | afterItem (items : List Json) (within : List Frame)
  | afterMember (members : List (Option String × Json)) (within : List Frame)
  | finished (result : Json)

namespace Reader

/-- A value is complete and takes its place in the innermost open container. -/
def put (v : Json) : List Frame → Reader
  | [] => .finished v
  | .array items :: within => .afterItem (v :: items) within
  | .object members name :: within => .afterMember ((name, v) :: members) within

/-- The first token of a value. -/
def beginValue (within : List Frame) : Token → Option Reader
  | .leftBracket => some (.firstItem within)
  | .leftBrace => some (.firstName within)
  | .scalar v => some (put v within)
  | _ => none

/-- One token. -/
def step : Reader → Token → Option Reader
  | .value within, t => beginValue within t
  | .firstItem within, .rightBracket => some (put (.array []) within)
  | .firstItem within, t => beginValue (.array [] :: within) t
  | .firstName within, .rightBrace => some (put (.object []) within)
  | .firstName within, .scalar (.string name) => some (.colon [] name within)
  | .furtherName members within, .scalar (.string name) => some (.colon members name within)
  | .colon members name within, .colon => some (.value (.object members name :: within))
  | .afterItem items within, .comma => some (.value (.array items :: within))
  | .afterItem items within, .rightBracket => some (put (.array items.reverse) within)
  | .afterMember members within, .comma => some (.furtherName members within)
  | .afterMember members within, .rightBrace => some (put (.object members.reverse) within)
  | _, _ => none

end Reader

/-- The value that a text spells. -/
def parse? (text : String) : Option Json := do
  let tokens ← Lexer.tokens? text.toList
  match ← tokens.foldlM Reader.step (.value []) with
  | .finished v => some v
  | _ => none

end DhcpRelay.Json
