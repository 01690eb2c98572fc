import DhcpRelay.Address.V4

/-!
# IPv6 addresses

Sixteen octets, written as eight groups of hexadecimal digits between colons.

The reader (`V6Address.parse?`) allows up to four digits in a group, leading zeros included, one
`::` that stands for at least one group of zeros, and an IPv4 address in place of the last two
groups. There is no zone and no bracket. The writer (`V6Address.text`) puts `::` for the longest
run of at least two zero groups, the first of equally long ones, and writes the last two groups as
an IPv4 address for an IPv4-mapped address and for no other.
-/

namespace DhcpRelay

open Std

/-- An IPv6 address. -/
structure V6Address where
  /-- Its octets in network order. -/
  octets : Octets 16
  deriving DecidableEq, Repr

namespace V6Address

/-! ## Order -/

/-- Addresses are ordered by their octets. -/
instance : Ord V6Address := ⟨compareOn fun a => a.octets.toList⟩

instance : TransOrd V6Address :=
  inferInstanceAs (TransCmp (compareOn fun a : V6Address => a.octets.toList))

instance : LawfulEqOrd V6Address where
  eq_of_compare {a b} h := by
    have h : a.octets.toList = b.octets.toList := @LawfulEqCmp.eq_of_compare _ compare _ _ _ h
    cases a; cases b; congr 1; exact Octets.ext_toList h

/-! ## Groups -/

/-- The numbers spelled by each two octets. -/
def pairValues : Bytes → List Nat
  | hi :: lo :: rest => (hi.toNat * 256 + lo.toNat) :: pairValues rest
  | _ => []

/-- The eight groups of 16 bits. -/
def groups (a : V6Address) : List Nat := pairValues a.octets.toList

/-- The address with the given eight groups. -/
def ofGroups? (gs : List Nat) : Option V6Address :=
  (Octets.ofList? 16 (gs.flatMap (Octets.digitsOf 2))).map .mk

/-- The address `::`. -/
def unspecified : V6Address := ⟨.replicate 16 0⟩

/-- All relay agents and servers on a link, ff02::1:2. -/
def allRelayAgentsAndServers : V6Address :=
  ⟨⟨[0xFF, 0x02, 0, 0, 0, 0, 0, 0, 0, 0, 0, 0, 0, 1, 0, 2], rfl⟩⟩

/-- Whether the address is in fe80::/10. -/
def isLinkLocal (a : V6Address) : Bool :=
  match a.octets.toList with
  | x :: y :: _ => x == 0xFE && y &&& 0xC0 == 0x80
  | _ => false

/-- The IPv4 address that the address is mapped from, if it is in ::ffff:0:0/96. -/
def mappedV4? (a : V6Address) : Option V4Address :=
  if a.octets.toList.take 12 = [0, 0, 0, 0, 0, 0, 0, 0, 0, 0, 0xFF, 0xFF] then
    (Octets.ofList? 4 (a.octets.toList.drop 12)).map .mk
  else none

/-- The mask whose first `n` bits are set. -/
def mask (n : Nat) : V6Address := ⟨.ofNat 16 (1 <<< 128 - 1 <<< (128 - min n 128))⟩

/-! ## Writing -/

/-- Groups between colons. -/
def groupsText (gs : List Nat) : String := ":".intercalate (gs.map Numeral.hex)

/-- The position and the length of the longest run of zeros, the first of equally long ones. -/
def longestZeros : List Nat → Nat × Nat
  | [] => (0, 0)
  | g :: gs =>
    let here := ((g :: gs).takeWhile (· == 0)).length
    let (start, length) := longestZeros gs
    if length ≤ here then (0, here) else (start + 1, length)

/-- The address in text. -/
def text (a : V6Address) : String :=
  match a.mappedV4? with
  | some v4 => "::ffff:" ++ v4.text
  | none =>
    let gs := a.groups
    let (start, length) := longestZeros gs
    if 2 ≤ length then groupsText (gs.take start) ++ "::" ++ groupsText (gs.drop (start + length))
    else groupsText gs

/-! ## Reading -/

/-- Takes the colon before every group but the first. -/
def takeSeparator? (first : Bool) (cs : List Char) : Option (List Char) :=
  if first then some cs
  else match cs with
    | ':' :: rest => some rest
    | _ => none

/-- Takes a group off the front: up to four hexadecimal digits. -/
def takeGroup? (cs : List Char) : Option (Nat × List Char) := do
  let (digits, rest) ← Numeral.takeDigits? 16 4 cs
  return (← Numeral.digitsValue? 16 digits, rest)

/-- Takes as many groups as there are, at most `limit`. An IPv4 address counts as two groups and
ends the run; the truth value says whether there was one. -/
def takeGroups : (limit : Nat) → (first : Bool) → List Char → List Nat × Bool × List Char
  | 0, _, cs => ([], false, cs)
  | limit + 1, first, cs =>
    let dotted := if limit = 0 then none else takeSeparator? first cs >>= V4Address.take?
    match dotted with
    | some (v4, rest) => (pairValues v4.octets.toList, true, rest)
    | none =>
      match takeSeparator? first cs >>= takeGroup? with
      | none => ([], false, cs)
      | some (g, rest) =>
        let (gs, dotted, rest) := takeGroups limit false rest
        (g :: gs, dotted, rest)

/-- Reads an address. -/
def parse? (s : String) : Option V6Address :=
  let (head, dotted, rest) := takeGroups 8 true s.toList
  if head.length = 8 then
    if rest.isEmpty then ofGroups? head else none
  else if dotted then none
  else
    match rest with
    | ':' :: ':' :: rest =>
      let (tail, _, rest) := takeGroups (7 - head.length) true rest
      if rest.isEmpty then
        ofGroups? (head ++ List.replicate (8 - head.length - tail.length) 0 ++ tail)
      else none
    | _ => none

end V6Address

end DhcpRelay
