/-!
# DHCPv6 message types

The types of message with their codes and names, and who sends them.
-/

namespace DhcpRelay.V6

/-- A DHCPv6 message type. -/
inductive MessageType where
  | solicit
  | advertise
  | request
  | confirm
  | renew
  | rebind
  | reply
  | release
  | decline
  | reconfigure
  | informationRequest
  | relayForward
  | relayReply
  deriving DecidableEq, Repr

namespace MessageType

/-- The code of a type. -/
def code : MessageType → UInt8
  | .solicit => 1
  | .advertise => 2
  | .request => 3
  | .confirm => 4
  | .renew => 5
  | .rebind => 6
  | .reply => 7
  | .release => 8
  | .decline => 9
  | .reconfigure => 10
  | .informationRequest => 11
  | .relayForward => 12
  | .relayReply => 13

/-- All types, in the order of their codes. -/
def all : List MessageType :=
  [.solicit, .advertise, .request, .confirm, .renew, .rebind, .reply, .release, .decline,
   .reconfigure, .informationRequest, .relayForward, .relayReply]

/-- The type with the given code. -/
def ofCode? (c : UInt8) : Option MessageType := all.find? (·.code == c)

/-- The name of a type. -/
def name : MessageType → String
  | .solicit => "SOLICIT"
  | .advertise => "ADVERTISE"
  | .request => "REQUEST"
  | .confirm => "CONFIRM"
  | .renew => "RENEW"
  | .rebind => "REBIND"
  | .reply => "REPLY"
  | .release => "RELEASE"
  | .decline => "DECLINE"
  | .reconfigure => "RECONFIGURE"
  | .informationRequest => "INFORMATION-REQUEST"
  | .relayForward => "RELAY-FORW"
  | .relayReply => "RELAY-REPL"

/-- The name of the type with the given code. -/
def nameOfCode (c : UInt8) : String := ((ofCode? c).map name).getD "UNKNOWN"

/-- Whether clients send messages of this type. -/
def isClientMessage : MessageType → Bool
  | .solicit | .request | .confirm | .renew | .rebind | .release | .decline
  | .informationRequest => true
  | .advertise | .reply | .reconfigure | .relayForward | .relayReply => false

/-- Whether relay agents and servers send messages of this type to each other. -/
def isRelayMessage (c : UInt8) : Bool := c == relayForward.code || c == relayReply.code

theorem ofCode?_code (t : MessageType) : ofCode? t.code = some t := by cases t <;> rfl

end MessageType

end DhcpRelay.V6
