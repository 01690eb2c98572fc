/-!
# DHCPv4 message types

The types of message that a relay agent handles, with their codes and names.
-/

namespace DhcpRelay.V4

/-- A DHCPv4 message type. -/
inductive MessageType where
  | discover
  | offer
  | request
  | decline
  | ack
  | nak
  | release
  | inform
  deriving DecidableEq, Repr

namespace MessageType

/-- The code of a type. -/
def code : MessageType → UInt8
  | .discover => 1
  | .offer => 2
  | .request => 3
  | .decline => 4
  | .ack => 5
  | .nak => 6
  | .release => 7
  | .inform => 8

/-- All types, in the order of their codes. -/
def all : List MessageType := [.discover, .offer, .request, .decline, .ack, .nak, .release, .inform]

/-- The type with the given code. -/
def ofCode? (c : UInt8) : Option MessageType := all.find? (·.code == c)

/-- The name of a type. -/
def name : MessageType → String
  | .discover => "DISCOVER"
  | .offer => "OFFER"
  | .request => "REQUEST"
  | .decline => "DECLINE"
  | .ack => "ACK"
  | .nak => "NAK"
  | .release => "RELEASE"
  | .inform => "INFORM"

/-- The name of the type with the given code. -/
def nameOfCode (c : UInt8) : String := ((ofCode? c).map name).getD "UNKNOWN"

/-- Whether clients send messages of this type; the others are sent by servers. -/
def isRequest : MessageType → Bool
  | .discover | .request | .decline | .release | .inform => true
  | .offer | .ack | .nak => false

theorem ofCode?_code (t : MessageType) : ofCode? t.code = some t := by cases t <;> rfl

end MessageType

end DhcpRelay.V4
