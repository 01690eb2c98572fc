import DhcpRelay.Octets

/-!
# UTF-8

Decoding as a machine that reads one octet at a time. Between characters it looks at the lead
octet; inside a character it knows how many octets are owed and the range in which the next one
must lie, so overlong forms, surrogates and code points past the last plane are refused at the
first octet that rules them out. An ill-formed stretch (as much of a character as was still
possible) becomes one `none`. `decode?` accepts a text without such stretches; `decodeLossy`
writes U+FFFD for each.
-/

namespace DhcpRelay.Utf8

/-- Where the machine stands between octets. -/
inductive State where
  | start
  /-- Inside a character: its bits so far, the octets owed after the next one, and the least and
  the greatest octet that may come next. -/
  | inside (bits owed low high : Nat)
  deriving DecidableEq, Repr

/-- The state after a character's first octet, or the character it is; `none` for an octet that
starts no character. -/
def lead (b : Nat) : Option (State × Option Char) :=
  if b < 0x80 then some (.start, some (Char.ofNat b))
  else if b < 0xC2 then none
  else if b < 0xE0 then some (.inside (b - 0xC0) 0 0x80 0xBF, none)
  else if b < 0xF0 then
    let low := if b = 0xE0 then 0xA0 else 0x80
    let high := if b = 0xED then 0x9F else 0xBF
    some (.inside (b - 0xE0) 1 low high, none)
  else if b < 0xF5 then
    let low := if b = 0xF0 then 0x90 else 0x80
    let high := if b = 0xF4 then 0x8F else 0xBF
    some (.inside (b - 0xF0) 2 low high, none)
  else none

/-- What has been decoded, last first, and the state: an octet between characters. -/
def stepStart (done : List (Option Char)) (b : Nat) : List (Option Char) × State :=
  match lead b with
  | some (state, some c) => (some c :: done, state)
  | some (state, none) => (done, state)
  | none => (none :: done, .start)

/-- One octet of input. An octet that cannot continue the character ends an ill-formed stretch and
is then read as the start of the next character. -/
def step : List (Option Char) × State → UInt8 → List (Option Char) × State
  | (done, .start), b => stepStart done b.toNat
  | (done, .inside bits owed low high), b =>
    if low ≤ b.toNat ∧ b.toNat ≤ high then
      let bits := bits * 64 + b.toNat % 64
      match owed with
      | 0 => (some (Char.ofNat bits) :: done, .start)
      | owed + 1 => (done, .inside bits owed 0x80 0xBF)
    else
      stepStart (none :: done) b.toNat

/-- The characters of an octet string, with `none` for each ill-formed stretch. -/
def pieces (bs : Bytes) : List (Option Char) :=
  match bs.foldl step ([], .start) with
  | (done, .start) => done.reverse
  | (done, .inside ..) => (none :: done).reverse

/-- The text of a well-formed octet string. -/
def decode? (bs : Bytes) : Option String := ((pieces bs).mapM id).map String.ofList

/-- The text with U+FFFD for each ill-formed stretch. -/
def decodeLossy (bs : Bytes) : String :=
  String.ofList ((pieces bs).map fun c => c.getD (Char.ofNat 0xFFFD))

/-- The octets of a text. -/
def encode (s : String) : Bytes := s.toUTF8.toList

end DhcpRelay.Utf8
