import DhcpRelay.Octets
import DhcpRelay.Text.Numeral

/-!
# Hardware addresses

An Ethernet address is six octets, written as pairs of hexadecimal digits between colons. The same
text serves for hardware addresses of other lengths (`Bytes.colonHex`), which is how clients are
told apart. The reader is more liberal than the writer: a part may have a plus sign and any number
of leading zeros.
-/

namespace DhcpRelay

/-- Octets as pairs of hexadecimal digits between colons. -/
def Bytes.colonHex (bs : Bytes) : String :=
  ":".intercalate (bs.map fun b => String.ofList (Numeral.hexOctet b))

/-- An Ethernet address. -/
structure HardwareAddress where
  octets : Octets 6
  deriving DecidableEq, Repr

namespace HardwareAddress

/-- The address of all stations. -/
def broadcast : HardwareAddress := ⟨.replicate 6 0xFF⟩

/-- The address in text. -/
def text (a : HardwareAddress) : String := a.octets.toList.colonHex

/-- The parts of a text between colons. -/
def colonParts : List Char → List (List Char)
  | [] => [[]]
  | c :: cs =>
    if c = ':' then [] :: colonParts cs
    else match colonParts cs with
      | part :: parts => (c :: part) :: parts
      | [] => [[c]]

/-- Reads an address of exactly six parts. -/
def parse? (cs : List Char) : Option HardwareAddress := do
  let parts := colonParts cs
  let octets ← parts.mapM (Numeral.octet? 16)
  (Octets.ofList? 6 octets).map .mk

end HardwareAddress

end DhcpRelay
