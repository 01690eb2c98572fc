import DhcpRelay.Address.Hardware
import DhcpRelay.V4.DhcpOption
import DhcpRelay.V4.MessageType

/-!
# DHCPv4 packets

The header of 236 octets, the magic cookie, and the options. `Packet.parse` refuses a packet that
is shorter than header and cookie, has another cookie, or claims a hardware address that is longer
than its field, in this order. `Packet.encode` pads a packet to the least size that every relay
passes on.
-/

namespace DhcpRelay.V4

/-- The octets after the header that tell DHCP options from other uses of the field. -/
def magicCookie : Bytes := [0x63, 0x82, 0x53, 0x63]

/-- The size of header and cookie. -/
def headerSize : Nat := 240

/-- The least size of a packet that is sent. -/
def minPacketSize : Nat := 272

/-- The size of the field for the hardware address. -/
def maxHardwareLen : UInt8 := 16

/-- The operation of packets towards servers. -/
def bootRequest : UInt8 := 1

/-- The operation of packets towards clients. -/
def bootReply : UInt8 := 2

/-- A DHCPv4 packet. -/
structure Packet where
  op : UInt8
  htype : UInt8
  hlen : UInt8
  hops : UInt8
  xid : UInt32
  secs : UInt16
  flags : UInt16
  ciaddr : V4Address
  yiaddr : V4Address
  siaddr : V4Address
  giaddr : V4Address
  chaddr : Octets 16
  sname : Octets 64
  file : Octets 128
  options : List DhcpOption
  deriving DecidableEq, Repr

namespace Packet

/-! ## Reading and writing -/

/-- Why octets are no packet. -/
inductive ParseError where
  | tooShort (length : Nat)
  | badMagic
  /-- The hardware address is longer than its field. -/
  | badHardwareLen (hlen : UInt8)
  deriving DecidableEq, Repr

/-- The wording of an error. -/
def ParseError.message : ParseError → String
  | .tooShort length =>
    "Packet too short: " ++ Numeral.decimal length ++ " bytes (minimum 240)"
  | .badMagic => "Invalid magic cookie"
  | .badHardwareLen hlen => "Invalid hardware address length " ++ Numeral.decimal hlen.toNat

/-- Reads a packet. -/
def parse (data : Bytes) : Except ParseError Packet :=
  if h : data.length < headerSize then .error (.tooShort data.length)
  else
    have h : 240 ≤ data.length := by simpa [headerSize] using h
    if (data.drop 236).take 4 ≠ magicCookie then .error .badMagic
    else if maxHardwareLen < data[2] then .error (.badHardwareLen data[2])
    else .ok
      { op := data[0]
        htype := data[1]
        hlen := data[2]
        hops := data[3]
        xid := UInt32.ofNat (Octets.slice data 4 4 (by omega)).toNat
        secs := UInt16.ofNat (Octets.slice data 8 2 (by omega)).toNat
        flags := UInt16.ofNat (Octets.slice data 10 2 (by omega)).toNat
        ciaddr := ⟨.slice data 12 4 (by omega)⟩
        yiaddr := ⟨.slice data 16 4 (by omega)⟩
        siaddr := ⟨.slice data 20 4 (by omega)⟩
        giaddr := ⟨.slice data 24 4 (by omega)⟩
        chaddr := .slice data 28 16 (by omega)
        sname := .slice data 44 64 (by omega)
        file := .slice data 108 128 (by omega)
        options := DhcpOption.parseAll (data.drop 240) }

/-- The header in octets. -/
def encodeHeader (p : Packet) : Bytes :=
  [p.op, p.htype, p.hlen, p.hops] ++ (Octets.ofNat 4 p.xid.toNat).toList
    ++ (Octets.ofNat 2 p.secs.toNat).toList ++ (Octets.ofNat 2 p.flags.toNat).toList
    ++ p.ciaddr.octets.toList ++ p.yiaddr.octets.toList ++ p.siaddr.octets.toList
    ++ p.giaddr.octets.toList ++ p.chaddr.toList ++ p.sname.toList ++ p.file.toList

/-- Fills up with zeros to the given size. -/
def padTo (size : Nat) (bs : Bytes) : Bytes := bs ++ List.replicate (size - bs.length) 0

/-- The packet in octets. -/
def encode (p : Packet) : Bytes :=
  padTo minPacketSize (p.encodeHeader ++ magicCookie ++ DhcpOption.encodeAll p.options)

/-! ## Contents -/

/-- The packet with another operation and other options. -/
def relayed (p : Packet) (op : UInt8) (options : List DhcpOption) : Packet := { p with op, options }

/-- The client's hardware address. -/
def hardwareOctets (p : Packet) : Bytes := p.chaddr.toList.take (min p.hlen maxHardwareLen).toNat

/-- The client's hardware address in text, by which the client is known. -/
def clientKey (p : Packet) : String := p.hardwareOctets.colonHex

/-- The client's hardware address, if it is an Ethernet address. -/
def etherAddress? (p : Packet) : Option HardwareAddress :=
  (Octets.ofList? 6 p.hardwareOctets).map .mk

/-- The first option of the given code. -/
def option? (p : Packet) (code : UInt8) : Option DhcpOption := p.options.find? (·.code == code)

/-- The code of the message type. -/
def messageCode? (p : Packet) : Option UInt8 :=
  p.option? DhcpOption.messageTypeCode >>= DhcpOption.firstOctet?

/-- The address that the client asks for. -/
def requestedIp? (p : Packet) : Option V4Address :=
  p.option? DhcpOption.requestedIpCode >>= DhcpOption.address?

/-- The server that the client chose. -/
def serverId? (p : Packet) : Option V4Address :=
  p.option? DhcpOption.serverIdCode >>= DhcpOption.address?

/-- Whether the client wants replies as broadcasts. -/
def isBroadcast (p : Packet) : Bool := p.flags &&& 0x8000 != 0

end Packet

end DhcpRelay.V4
