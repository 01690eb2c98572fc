import DhcpRelay.Address.V4

/-!
# DHCPv4 options

After its header a message holds options: a code, a length and that many octets of data, with pad
octets between them and an end octet after the last. Reading (`DhcpOption.parseAll`) stops at the
end octet or at an option that is cut short; writing (`DhcpOption.encodeAll`) puts no pads.

A relayed message has its options rearranged (`relayOptions`): the message type comes first, and of
each code only the first option stays.
-/

namespace DhcpRelay.V4

/-- An option. -/
structure DhcpOption where
  code : UInt8
  data : Bytes
  deriving DecidableEq, Repr

namespace DhcpOption

/-- The octet that fills space between options. -/
def padCode : UInt8 := 0

/-- The octet after the last option. -/
def endCode : UInt8 := 255

/-- The code of the address that a client asks for. -/
def requestedIpCode : UInt8 := 50

/-- The code of the message type. -/
def messageTypeCode : UInt8 := 53

/-- The code of the server identifier. -/
def serverIdCode : UInt8 := 54

/-- The option that holds a message type. -/
def messageType (t : UInt8) : DhcpOption := ⟨messageTypeCode, [t]⟩

/-- The option that names a server. -/
def serverId (a : V4Address) : DhcpOption := ⟨serverIdCode, a.octets.toList⟩

/-- The option that holds the address a client asks for. -/
def requestedIp (a : V4Address) : DhcpOption := ⟨requestedIpCode, a.octets.toList⟩

/-- The data as an address, if it has four octets. -/
def address? (o : DhcpOption) : Option V4Address := (Octets.ofList? 4 o.data).map .mk

/-- The first octet of the data. -/
def firstOctet? (o : DhcpOption) : Option UInt8 := o.data.head?

/-! ## Reading and writing -/

/-- The options up to the end octet or to the first option that is cut short. -/
def parseAll (bs : Bytes) : List DhcpOption :=
  match bs with
  | [] => []
  | code :: rest =>
    if code = endCode then []
    else if code = padCode then parseAll rest
    else match rest with
      | [] => []
      | length :: rest =>
        match _h : Bytes.split? length.toNat rest with
        | none => []
        | some (data, rest') => ⟨code, data⟩ :: parseAll rest'
termination_by bs.length
decreasing_by
  · simp
  · have := Bytes.length_rest_le _h
    simp only [List.length_cons]
    omega

/-- An option in octets. The length is written modulo 256, the data in full. -/
def encode (o : DhcpOption) : Bytes := o.code :: UInt8.ofNat o.data.length :: o.data

/-- Options in octets, with the end octet after them. -/
def encodeAll (options : List DhcpOption) : Bytes := options.flatMap encode ++ [endCode]

end DhcpOption

/-! ## Relaying -/

/-- The options whose code is not in `seen` and stands for the first time. -/
def firstOfEachCode (seen : List UInt8) : List DhcpOption → List DhcpOption
  | [] => []
  | o :: rest =>
    if o.code ∈ seen then firstOfEachCode seen rest
    else o :: firstOfEachCode (o.code :: seen) rest

/-- The options of a relayed message: the message type, then the received options in their order,
of each other code the first. -/
def relayOptions (messageType : UInt8) (received : List DhcpOption) : List DhcpOption :=
  .messageType messageType :: firstOfEachCode [DhcpOption.messageTypeCode] received

end DhcpRelay.V4
