import DhcpRelay.Address.Hardware
import DhcpRelay.Address.V6

/-!
# DHCPv6 options

An option is a code and a length of two octets each, and that many octets of data. Reading stops at
an option that is cut short. Some options hold options in turn: an identity association has a
header of its own and then options, among them the addresses that a server leases
(`leaseAddress?`). A client identifier may hold the client's Ethernet address (`duidEther?`).
-/

namespace DhcpRelay.V6

/-- An option. -/
structure DhcpOption where
  code : UInt16
  data : Bytes
  deriving DecidableEq, Repr

namespace DhcpOption

/-- The code of the client identifier. -/
def clientIdCode : UInt16 := 1

/-- The code of an identity association for lasting addresses. -/
def iaNaCode : UInt16 := 3

/-- The code of an identity association for temporary addresses. -/
def iaTaCode : UInt16 := 4

/-- The code of an address in an identity association. -/
def iaAddressCode : UInt16 := 5

/-- The code of the message inside a relay message. -/
def relayMessageCode : UInt16 := 9

/-! ## Reading and writing -/

/-- The options up to the first that is cut short. -/
def parseAll (bs : Bytes) : List DhcpOption :=
  match bs with
  | code₁ :: code₀ :: length₁ :: length₀ :: rest =>
    match _h : Bytes.split? (length₁.toNat * 256 + length₀.toNat) rest with
    | none => []
    | some (data, rest') => ⟨UInt16.ofNat (code₁.toNat * 256 + code₀.toNat), data⟩ :: parseAll rest'
  | _ => []
termination_by bs.length
decreasing_by
  have := Bytes.length_rest_le _h
  simp only [List.length_cons]
  omega

/-- An option in octets. The length is written modulo 65536, the data in full. -/
def encode (o : DhcpOption) : Bytes :=
  Octets.digitsOf 2 o.code.toNat ++ Octets.digitsOf 2 o.data.length ++ o.data

/-- Options in octets. -/
def encodeAll (options : List DhcpOption) : Bytes := options.flatMap encode

/-- The first option of the given code. -/
def find? (options : List DhcpOption) (code : UInt16) : Option DhcpOption :=
  options.find? (·.code == code)

/-! ## Contents -/

/-- The octets before the options of an identity association. -/
def iaHeaderSize? (code : UInt16) : Option Nat :=
  if code = iaNaCode then some 12
  else if code = iaTaCode then some 4
  else none

/-- The first address in an identity association. -/
def iaAddress? (o : DhcpOption) : Option V6Address := do
  let size ← iaHeaderSize? o.code
  let (_, inner) ← Bytes.split? size o.data
  let found ← find? (parseAll inner) iaAddressCode
  let (octets, _) ← Bytes.split? 16 found.data
  return ⟨← Octets.ofList? 16 octets⟩

/-- The address that a message leases: the one in the first association for lasting addresses, or,
if there is no such association, in the first one for temporary addresses. -/
def leaseAddress? (options : List DhcpOption) : Option V6Address :=
  match find? options iaNaCode with
  | some ia => ia.iaAddress?
  | none => find? options iaTaCode >>= iaAddress?

end DhcpOption

/-- The Ethernet address in a client identifier. Identifiers of two kinds hold one: type 1 after a
time stamp and type 3 without one, both with hardware type 1. -/
def duidEther? (duid : Bytes) : Option HardwareAddress := do
  let (type, rest) ← Bytes.split? 2 duid
  let (hardware, rest) ← Bytes.split? 2 rest
  guard (hardware = [0, 1])
  let rest ←
    if type = [0, 1] then (Bytes.split? 4 rest).map (·.2)
    else if type = [0, 3] then some rest
    else none
  let (octets, _) ← Bytes.split? 6 rest
  return ⟨← Octets.ofList? 6 octets⟩

end DhcpRelay.V6
