/-!
# Numerals

Reading and writing numbers in radix 10 and 16. The readers take a list of characters that must be
a numeral from end to end; what a caller allows beyond the digits (a sign, leading zeros, a largest
value) is stated by the reader it picks.
-/

namespace DhcpRelay.Numeral

/-- The value of a digit, if it is one in this radix (at most 16). Both cases of a letter count. -/
def digit? (radix : Nat) (c : Char) : Option Nat :=
  let value :=
    if '0' ≤ c ∧ c ≤ '9' then some (c.toNat - '0'.toNat)
    else if 'a' ≤ c ∧ c ≤ 'f' then some (c.toNat - 'a'.toNat + 10)
    else if 'A' ≤ c ∧ c ≤ 'F' then some (c.toNat - 'A'.toNat + 10)
    else none
  value.filter (· < radix)

/-- Whether `c` is a digit in this radix. -/
def isDigit (radix : Nat) (c : Char) : Bool := (digit? radix c).isSome

/-- The number spelled by a list of digits. -/
def digitsValue? (radix : Nat) (cs : List Char) : Option Nat :=
  cs.foldlM (fun acc c => (digit? radix c).map (acc * radix + ·)) 0

/-- The number spelled by one digit or more. Leading zeros are allowed. -/
def nat? (radix : Nat) (cs : List Char) : Option Nat :=
  if cs.isEmpty then none else digitsValue? radix cs

/-- A number of at most 255 after an optional plus sign. Leading zeros are allowed. -/
def octet? (radix : Nat) (cs : List Char) : Option UInt8 :=
  let digits := match cs with
    | '+' :: rest => rest
    | _ => cs
  ((nat? radix digits).filter (· ≤ 255)).map UInt8.ofNat

/-- Takes a run of digits off the front, between one and `limit` of them; the run ends where the
digits end, so a longer one is refused and not cut. -/
def takeDigits? (radix limit : Nat) (cs : List Char) : Option (List Char × List Char) :=
  let (digits, rest) := cs.span (isDigit radix)
  if digits.isEmpty ∨ limit < digits.length then none else some (digits, rest)

/-- The decimal numeral. -/
def decimal (n : Nat) : String := n.repr

/-- The decimal numeral, with a minus sign in front of a negative number. -/
def signedDecimal : Int → String
  | .ofNat n => decimal n
  | .negSucc n => "-" ++ decimal (n + 1)

/-- The hexadecimal numeral, in lower case and without leading zeros. -/
def hex (n : Nat) : String := String.ofList (Nat.toDigits 16 n)

/-- An octet as two hexadecimal digits in lower case. -/
def hexOctet (b : UInt8) : List Char :=
  [Nat.digitChar (b.toNat / 16), Nat.digitChar (b.toNat % 16)]

end DhcpRelay.Numeral
