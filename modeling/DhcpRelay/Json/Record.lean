import DhcpRelay.Json.Value

/-!
# Reading records from JSON values

A record is written as an object, in which names that the record does not know are ignored and a
known name may stand only once, or as an array of its fields in their order, in which fields at the
end may be left out. `fields?` brings both forms to one: for each field the value that was given,
or `none`. What a field that is not given means is the field's own rule (`required?`, `orElse?`).

No kind of value stands for another one: numbers are not truth values, and a number with a fraction
or an exponent is no integer, even if it is whole.
-/

namespace DhcpRelay.Json

/-- The values of a record's fields, in the order of `names`. -/
def fields? (names : List String) : Json → Option (List (Option Json))
  | .array items =>
    if items.length ≤ names.length then
      some (items.map some ++ List.replicate (names.length - items.length) none)
    else none
  | .object members => do
    let members ← members.mapM fun (name, v) => name.map (·, v)
    if names.any fun name => 1 < (members.filter (·.1 == name)).length then none
    else some (names.map fun name => members.lookup name)
  | _ => none

/-- A field that has to be given. -/
def required? {α : Type} (read : Json → Option α) : Option Json → Option α
  | some v => read v
  | none => none

/-- A field that means `fallback` when it is not given. -/
def orElse? {α : Type} (fallback : α) (read : Json → Option α) : Option Json → Option α
  | some v => read v
  | none => some fallback

/-- The truth value. -/
def bool? : Json → Option Bool
  | .bool b => some b
  | _ => none

/-- The string. -/
def string? : Json → Option String
  | .string s => s
  | _ => none

/-- The items of an array, all of them readable. -/
def list? {α : Type} (read : Json → Option α) : Json → Option (List α)
  | .array items => items.mapM read
  | _ => none

/-- A value that may be `null`. -/
def nullable? {α : Type} (read : Json → Option α) : Json → Option (Option α)
  | .null => some none
  | v => (read v).map some

/-- The integer that a number spells; minus zero is no integer. -/
def integerValue? (cs : List Char) : Option Int :=
  match cs with
  | '-' :: digits => ((Numeral.nat? 10 digits).filter (0 < ·)).map fun n => -(n : Int)
  | digits => (Numeral.nat? 10 digits).map Int.ofNat

/-- An integer from `low` to `high`. -/
def integer? (low high : Int) : Json → Option Int
  | .number text => (integerValue? text.toList).filter fun n => low ≤ n ∧ n ≤ high
  | _ => none

/-- A natural number of at most `high`. -/
def natural? (high : Nat) (v : Json) : Option Nat := (integer? 0 high v).map Int.toNat

end DhcpRelay.Json
