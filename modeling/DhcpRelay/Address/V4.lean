import DhcpRelay.Octets
import DhcpRelay.Text.Numeral

/-!
# IPv4 addresses

Four octets, written as four decimal numbers between points. The reader accepts that form alone:
between one and three digits in each number, no leading zero, nothing before or after.
-/

namespace DhcpRelay

/-- An IPv4 address. -/
structure V4Address where
  /-- Its octets in network order. -/
  octets : Octets 4
  deriving DecidableEq, Repr

namespace V4Address

/-- The address with the given octets. -/
def of (a b c d : UInt8) : V4Address := ⟨⟨[a, b, c, d], rfl⟩⟩

/-- The address 0.0.0.0. -/
def unspecified : V4Address := of 0 0 0 0

/-- The address 255.255.255.255. -/
def broadcast : V4Address := of 255 255 255 255

/-- Whether the address is 0.0.0.0. -/
def isUnspecified (a : V4Address) : Bool := a = unspecified

/-- The mask whose first `n` bits are set. -/
def mask (n : Nat) : V4Address := ⟨.ofNat 4 (1 <<< 32 - 1 <<< (32 - min n 32))⟩

/-- The address in text. -/
def text (a : V4Address) : String :=
  ".".intercalate (a.octets.toList.map fun b => Numeral.decimal b.toNat)

/-! ## Reading -/

/-- Takes one number of an address off the front. -/
def takeOctet? (cs : List Char) : Option (UInt8 × List Char) := do
  let (digits, rest) ← Numeral.takeDigits? 10 3 cs
  guard (digits.length = 1 ∨ digits.head? ≠ some '0')
  let value ← Numeral.digitsValue? 10 digits
  guard (value ≤ 255)
  return (UInt8.ofNat value, rest)

/-- Takes a point and one number of an address off the front. -/
def takePointOctet? : List Char → Option (UInt8 × List Char)
  | '.' :: rest => takeOctet? rest
  | _ => none

/-- Takes an address off the front. -/
def take? (cs : List Char) : Option (V4Address × List Char) := do
  let (a, cs) ← takeOctet? cs
  let (b, cs) ← takePointOctet? cs
  let (c, cs) ← takePointOctet? cs
  let (d, cs) ← takePointOctet? cs
  return (of a b c d, cs)

/-- Reads an address. -/
def parse? (s : String) : Option V4Address :=
  match take? s.toList with
  | some (a, []) => some a
  | _ => none

end V4Address

end DhcpRelay
