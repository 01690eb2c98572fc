import DhcpRelay.V6.DhcpOption
import DhcpRelay.V6.MessageType

/-!
# DHCPv6 messages

Clients and servers exchange a `ClientMessage`: a type, a transaction id and options. A relay agent
puts what it receives into a `RelayMessage`, which says how many relays the message has passed, on
which link it arrived and from whom, and holds it unchanged in an option; so relay messages nest.
-/

namespace DhcpRelay.V6

/-- The size of the header of a message between client and server. -/
def clientHeaderSize : Nat := 4

/-- The size of the header of a relay message. -/
def relayHeaderSize : Nat := 34

/-- Why octets are no message. -/
inductive ParseError where
  | tooShort (length minimum : Nat)
  | missingRelayMessage
  deriving DecidableEq, Repr

/-- The wording of an error. -/
def ParseError.message : ParseError → String
  | .tooShort length minimum =>
    "Packet too short: " ++ Numeral.decimal length ++ " bytes (minimum "
      ++ Numeral.decimal minimum ++ ")"
  | .missingRelayMessage => "Relay message without Relay-Message option"

/-- A message between client and server. -/
structure ClientMessage where
  type : UInt8
  xid : Octets 3
  options : List DhcpOption
  deriving DecidableEq, Repr

namespace ClientMessage

/-- Reads a message. -/
def parse (data : Bytes) : Except ParseError ClientMessage :=
  match data with
  | type :: x₂ :: x₁ :: x₀ :: rest => .ok ⟨type, ⟨[x₂, x₁, x₀], rfl⟩, DhcpOption.parseAll rest⟩
  | _ => .error (.tooShort data.length clientHeaderSize)

/-- The client's Ethernet address, if its identifier holds one. -/
def ether? (m : ClientMessage) : Option HardwareAddress :=
  DhcpOption.find? m.options DhcpOption.clientIdCode >>= fun o => duidEther? o.data

/-- The address that the message leases. -/
def leaseAddress? (m : ClientMessage) : Option V6Address := DhcpOption.leaseAddress? m.options

end ClientMessage

/-- A message between relay agents and servers. -/
structure RelayMessage where
  type : UInt8
  hopCount : UInt8
  /-- An address of the link on which the client is. -/
  linkAddress : V6Address
  /-- From whom the message inside was received. -/
  peerAddress : V6Address
  options : List DhcpOption
  deriving DecidableEq, Repr

namespace RelayMessage

/-- The message that takes `payload` towards the servers. -/
def forward (hopCount : UInt8) (link peer : V6Address) (payload : Bytes) : RelayMessage :=
  ⟨MessageType.relayForward.code, hopCount, link, peer, [⟨DhcpOption.relayMessageCode, payload⟩]⟩

/-- Reads a relay message. -/
def parse (data : Bytes) : Except ParseError RelayMessage :=
  if h : data.length < relayHeaderSize then .error (.tooShort data.length relayHeaderSize)
  else
    have h : 34 ≤ data.length := by simpa [relayHeaderSize] using h
    .ok
      { type := data[0]
        hopCount := data[1]
        linkAddress := ⟨.slice data 2 16 (by omega)⟩
        peerAddress := ⟨.slice data 18 16 (by omega)⟩
        options := DhcpOption.parseAll (data.drop 34) }

/-- The message in octets. -/
def encode (m : RelayMessage) : Bytes :=
  [m.type, m.hopCount] ++ m.linkAddress.octets.toList ++ m.peerAddress.octets.toList
    ++ DhcpOption.encodeAll m.options

/-- The message inside, one level down. -/
def relayMessage (m : RelayMessage) : Except ParseError Bytes :=
  match DhcpOption.find? m.options DhcpOption.relayMessageCode with
  | some o => .ok o.data
  | none => .error .missingRelayMessage

end RelayMessage

end DhcpRelay.V6
