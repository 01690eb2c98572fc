import DhcpRelay.Json.Value

/-!
# The lexical grammar of JSON

A text is cut into tokens by a machine that reads one character at a time (`Lexer.step`). White
space is space, tab, line feed and carriage return; anything else between tokens is refused, so
there are no comments and no byte order mark. A string may not hold a raw control character. A run
of letters, digits and number signs is one word, which has to be a literal or a number in the strict
grammar: no plus sign in front, no leading zero, digits on both sides of the point.
-/

namespace DhcpRelay.Json

/-- A token: a structural character, or a value that is no container. -/
inductive Token where
  | leftBracket
  | rightBracket
  | leftBrace
  | rightBrace
  | comma
  | colon
  | scalar (value : Json)

/-! ## Words -/

/-- What is left after one digit or more. -/
def afterDigits? (cs : List Char) : Option (List Char) :=
  match cs.span (Numeral.isDigit 10) with
  | ([], _) => none
  | (_ :: _, rest) => some rest

/-- What is left after the whole part of a number: a zero, or digits that do not start with one. -/
def afterWhole? : List Char → Option (List Char)
  | '0' :: rest => some rest
  | cs => afterDigits? cs

/-- What is left after the fraction, if there is one. -/
def afterFraction? : List Char → Option (List Char)
  | '.' :: rest => afterDigits? rest
  | cs => some cs

/-- What is left after the exponent, if there is one. -/
def afterExponent? : List Char → Option (List Char)
  | c :: rest =>
    if c = 'e' ∨ c = 'E' then
      match rest with
      | '+' :: digits => afterDigits? digits
      | '-' :: digits => afterDigits? digits
      | digits => afterDigits? digits
    else some (c :: rest)
  | [] => some []

/-- Whether the word is a number. -/
def isNumber (cs : List Char) : Bool :=
  let unsigned := match cs with
    | '-' :: rest => rest
    | _ => cs
  (afterWhole? unsigned >>= afterFraction? >>= afterExponent?).any List.isEmpty

/-- The value that a word stands for. -/
def ofWord? (cs : List Char) : Option Json :=
  if cs = ['n', 'u', 'l', 'l'] then some .null
  else if cs = ['t', 'r', 'u', 'e'] then some (.bool true)
  else if cs = ['f', 'a', 'l', 's', 'e'] then some (.bool false)
  else if isNumber cs then some (.number (String.ofList cs))
  else none

/-! ## Strings -/

/-- A string that is being read. -/
structure Quoted where
  /-- The characters so far, last first. -/
  chars : List Char := []
  /-- A first half of a surrogate pair that waits for its second half. -/
  high : Option Nat := none
  /-- Whether no half of a pair stood alone so far. -/
  paired : Bool := true

namespace Quoted

/-- The string after a character that is no half of a pair. -/
def push (q : Quoted) (c : Char) : Quoted :=
  ⟨c :: q.chars, none, q.paired && q.high.isNone⟩

/-- The string after an escape of four hexadecimal digits. -/
def pushUnit (q : Quoted) (u : Nat) : Quoted :=
  if 0xD800 ≤ u ∧ u < 0xDC00 then ⟨q.chars, some u, q.paired && q.high.isNone⟩
  else if 0xDC00 ≤ u ∧ u < 0xE000 then
    match q.high with
    | some h =>
      ⟨Char.ofNat (0x10000 + (h - 0xD800) * 0x400 + (u - 0xDC00)) :: q.chars, none, q.paired⟩
    | none => ⟨q.chars, none, false⟩
  else q.push (Char.ofNat u)

/-- The string value at the closing quote. -/
def value (q : Quoted) : Json :=
  .string (if q.paired && q.high.isNone then some (String.ofList q.chars.reverse) else none)

end Quoted

/-- The character that a one-letter escape stands for. -/
def escaped? (c : Char) : Option Char :=
  if c = '"' ∨ c = '\\' ∨ c = '/' then some c
  else if c = 'b' then some (Char.ofNat 8)
  else if c = 'f' then some (Char.ofNat 12)
  else if c = 'n' then some (Char.ofNat 10)
  else if c = 'r' then some (Char.ofNat 13)
  else if c = 't' then some (Char.ofNat 9)
  else none

/-! ## The machine -/

/-- Where the machine stands between characters of the text. -/
inductive Lexer where
  | between
  /-- In a word, its characters last first. -/
  | word (chars : List Char)
  | quoted (q : Quoted)
  /-- After the backslash of an escape. -/
  | escape (q : Quoted)
  /-- In an escape of four hexadecimal digits: the digits owed after the next one, and the value
  so far. -/
  | unit (q : Quoted) (owed value : Nat)

namespace Lexer

/-- Whether the character is white space. -/
def isSpace (c : Char) : Bool := c = ' ' || c = '\t' || c = '\n' || c = '\r'

/-- Whether the character can stand in a word. -/
def isWordChar (c : Char) : Bool := c.isAlphanum || c = '+' || c = '-' || c = '.'

/-- The token of a structural character. -/
def structural? (c : Char) : Option Token :=
  if c = '[' then some .leftBracket
  else if c = ']' then some .rightBracket
  else if c = '\x7b' then some .leftBrace
  else if c = '\x7d' then some .rightBrace
  else if c = ',' then some .comma
  else if c = ':' then some .colon
  else none

/-- A character between tokens. The tokens stand last first. -/
def stepBetween (tokens : List Token) (c : Char) : Option (List Token × Lexer) :=
  if isSpace c then some (tokens, .between)
  else if c = '"' then some (tokens, .quoted {})
  else if isWordChar c then some (tokens, .word [c])
  else (structural? c).map fun t => (t :: tokens, .between)

/-- One character. -/
def step : List Token × Lexer → Char → Option (List Token × Lexer)
  | (tokens, .between), c => stepBetween tokens c
  | (tokens, .word chars), c =>
    if isWordChar c then some (tokens, .word (c :: chars))
    else (ofWord? chars.reverse).bind fun v => stepBetween (.scalar v :: tokens) c
  | (tokens, .quoted q), c =>
    if c = '"' then some (.scalar q.value :: tokens, .between)
    else if c = '\\' then some (tokens, .escape q)
    else if c.toNat < 0x20 then none
    else some (tokens, .quoted (q.push c))
  | (tokens, .escape q), c =>
    if c = 'u' then some (tokens, .unit q 3 0)
    else (escaped? c).map fun e => (tokens, .quoted (q.push e))
  | (tokens, .unit q owed value), c =>
    (Numeral.digit? 16 c).map fun d =>
      let value := value * 16 + d
      match owed with
      | 0 => (tokens, .quoted (q.pushUnit value))
      | owed + 1 => (tokens, .unit q owed value)

/-- The tokens of a text, if it can be cut into tokens. -/
def tokens? (cs : List Char) : Option (List Token) :=
  match cs.foldlM step ([], .between) with
  | some (tokens, .between) => some tokens.reverse
  | some (tokens, .word chars) =>
    (ofWord? chars.reverse).map fun v => (Token.scalar v :: tokens).reverse
  | _ => none

end Lexer

end DhcpRelay.Json
