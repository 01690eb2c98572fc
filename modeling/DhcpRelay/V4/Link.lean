import DhcpRelay.Address.Hardware

/-!
# Links

A reply to a client goes out through a handle of the client's link. Opening one needs the hardware
address of the interface, which the system keeps as text with white space around it, and a socket.
The relay takes the outcome of both from outside (`V4.Network` in `DhcpRelay.V4.Relay`), and notes
every attempt.
-/

namespace DhcpRelay

/-! ## White space

The characters with the property White_Space, and trimming by it. Core's `Char.isWhitespace` knows
four of them; each of those is in the table. -/

namespace Text

/-- The ranges of characters that are white space. -/
def blankRanges : List (Nat × Nat) :=
  [(0x09, 0x0D), (0x20, 0x20), (0x85, 0x85), (0xA0, 0xA0), (0x1680, 0x1680), (0x2000, 0x200A),
   (0x2028, 0x2029), (0x202F, 0x202F), (0x205F, 0x205F), (0x3000, 0x3000)]

/-- Whether the character is white space. -/
def isBlank (c : Char) : Bool := blankRanges.any fun (low, high) => low ≤ c.toNat && c.toNat ≤ high

/-- Core's white space is white space. -/
theorem isBlank_of_isWhitespace {c : Char} (h : c.isWhitespace = true) : isBlank c = true := by
  simp only [Char.isWhitespace, Bool.or_eq_true, decide_eq_true_eq] at h
  rcases h with ((rfl | rfl) | rfl) | rfl <;> decide

/-- The text without the white space at its two ends. -/
def trim (cs : List Char) : List Char :=
  ((cs.dropWhile isBlank).reverse.dropWhile isBlank).reverse

end Text

/-! ## Handles -/

namespace V4

/-- An open handle of a link. -/
structure Handle where
  /-- Which handle this is, counting those that were opened, from 1. -/
  serial : Nat
  name : String
  mac : HardwareAddress
  deriving DecidableEq, Repr

/-- An attempt to open a link. -/
structure Opening where
  name : String
  index : Int
  opened : Bool
  deriving DecidableEq, Repr

/-- Why a link cannot be opened. -/
inductive LinkError where
  | notFound
  /-- What the system has as the hardware address is none. -/
  | badAddress
  | unavailable
  deriving DecidableEq, Repr

/-- Opens a link, given the text of the interface's hardware address, if the interface exists, and
whether its socket opens. -/
def openLink (address : Option String) (socketOpens : Bool) : Except LinkError HardwareAddress :=
  match address with
  | none => .error .notFound
  | some text =>
    match HardwareAddress.parse? (Text.trim text.toList) with
    | none => .error .badAddress
    | some mac => if socketOpens then .ok mac else .error .unavailable

end V4

end DhcpRelay
