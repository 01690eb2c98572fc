import DhcpRelay.Json.Value

/-!
# Writing JSON

A value is written on one line without blanks. In a string the quote, the backslash and the control
characters are escaped and every other character stands for itself.
-/

namespace DhcpRelay.Json

/-- A character inside a string. -/
def escapeChar (c : Char) : List Char :=
  if c = '"' then ['\\', '"']
  else if c = '\\' then ['\\', '\\']
  else if c.toNat < 0x20 then ['\\', 'u', '0', '0'] ++ Numeral.hexOctet (UInt8.ofNat c.toNat)
  else [c]

/-- Appends characters to a text. -/
def pushAll (acc : String) (cs : List Char) : String := cs.foldl String.push acc

/-- Appends a string in quotes. A string with half of a surrogate pair is written as U+FFFD. -/
def renderString (acc : String) (s : Option String) : String :=
  let cs := (s.map String.toList).getD [Char.ofNat 0xFFFD]
  (cs.foldl (fun acc c => pushAll acc (escapeChar c)) (acc.push '"')).push '"'

mutual

/-- Appends a value. -/
def renderTo (acc : String) : Json → String
  | .null => acc ++ "null"
  | .bool true => acc ++ "true"
  | .bool false => acc ++ "false"
  | .number text => acc ++ text
  | .string s => renderString acc s
  | .array items => (renderItems (acc.push '[') items).push ']'
  | .object members => (renderMembers (acc.push '\x7b') members).push '\x7d'

/-- Appends the items of an array. -/
def renderItems (acc : String) : List Json → String
  | [] => acc
  | [v] => renderTo acc v
  | v :: rest => renderItems ((renderTo acc v).push ',') rest

/-- Appends the members of an object. -/
def renderMembers (acc : String) : List (Option String × Json) → String
  | [] => acc
  | [(name, v)] => renderTo ((renderString acc name).push ':') v
  | (name, v) :: rest =>
    renderMembers ((renderTo ((renderString acc name).push ':') v).push ',') rest

end

/-- The text of a value. -/
def render (v : Json) : String := renderTo "" v

end DhcpRelay.Json
