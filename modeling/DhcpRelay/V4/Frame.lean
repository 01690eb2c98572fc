import DhcpRelay.Address.Hardware
import DhcpRelay.Address.V4

/-!
# Frames

A client that has no address yet is reached with a frame of its link: an Ethernet header, an IPv4
header and a UDP header before the payload. The checksum is the Internet checksum: the complement
of the ones' complement sum of 16-bit words, where an odd last octet is the high half of a word.
-/

namespace DhcpRelay.V4

/-! ## Checksums -/

/-- Adds the words of an octet string to a sum of 32 bits. -/
def sumWords (sum : UInt32) : Bytes → UInt32
  | hi :: lo :: rest => sumWords (sum + (hi.toUInt32 * 256 + lo.toUInt32)) rest
  | [hi] => sum + hi.toUInt32 * 256
  | [] => sum

/-- Adds what is above 16 bits to what is below. -/
def carry (sum : UInt32) : UInt32 := sum % 0x10000 + sum / 0x10000

/-- The checksum of a sum. Two carries bring every sum into 16 bits: the first leaves at most
0x1FFFE, the second at most 0xFFFF. -/
def complementOfSum (sum : UInt32) : UInt16 := ~~~(carry (carry sum)).toUInt16

/-- The Internet checksum of an octet string. -/
def checksum (bs : Bytes) : UInt16 := complementOfSum (sumWords 0 bs)

/-- The protocol number of UDP. -/
def udpProtocol : UInt8 := 17

/-- The octets before a UDP segment that its checksum covers besides. -/
def pseudoHeader (src dst : V4Address) (length : Nat) : Bytes :=
  src.octets.toList ++ dst.octets.toList ++ [0, udpProtocol] ++ Octets.digitsOf 2 length

/-- The checksum of a UDP segment. It is never zero, which would mean that there is none. -/
def udpChecksum (src dst : V4Address) (segment : Bytes) : UInt16 :=
  let sum := complementOfSum (sumWords (sumWords 0 (pseudoHeader src dst segment.length)) segment)
  if sum = 0 then 0xFFFF else sum

/-! ## Frames -/

/-- The addresses of a frame. -/
structure FrameAddresses where
  srcMac : HardwareAddress
  dstMac : HardwareAddress
  srcIp : V4Address
  dstIp : V4Address
  srcPort : UInt16
  dstPort : UInt16
  deriving DecidableEq, Repr

namespace FrameAddresses

/-- The IPv4 header for a packet of `length` octets with the given checksum. -/
def ipHeader (a : FrameAddresses) (length : Nat) (sum : UInt16) : Bytes :=
  [0x45, 0] ++ Octets.digitsOf 2 length ++ [0, 0, 0, 0, 64, udpProtocol]
    ++ Octets.digitsOf 2 sum.toNat ++ a.srcIp.octets.toList ++ a.dstIp.octets.toList

/-- The UDP segment of a payload with the given checksum. -/
def segment (a : FrameAddresses) (payload : Bytes) (sum : UInt16) : Bytes :=
  Octets.digitsOf 2 a.srcPort.toNat ++ Octets.digitsOf 2 a.dstPort.toNat
    ++ Octets.digitsOf 2 (8 + payload.length) ++ Octets.digitsOf 2 sum.toNat ++ payload

/-- The frame that carries a payload. Lengths are written modulo 65536. -/
def frame (a : FrameAddresses) (payload : Bytes) : Bytes :=
  let length := 28 + payload.length
  a.dstMac.octets.toList ++ a.srcMac.octets.toList ++ [0x08, 0x00]
    ++ a.ipHeader length (checksum (a.ipHeader length 0))
    ++ a.segment payload (udpChecksum a.srcIp a.dstIp (a.segment payload 0))

end FrameAddresses

end DhcpRelay.V4
