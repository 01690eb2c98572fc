import DhcpRelay.Counters
import DhcpRelay.Outcome
import DhcpRelay.Tracker
import DhcpRelay.V4.Frame
import DhcpRelay.V4.Link
import DhcpRelay.V4.Packet

/-!
# The DHCPv4 relay

Requests of clients go to the servers: a message that looks for servers to every configured one, any
other to the server that it names. On the way the relay counts itself as a hop, fills in its own
address if no relay did before, and puts the options in order. Replies of servers go back to the
interface on which the client's hardware address was last seen, in a frame through a handle of that
link.

One datagram is one step, a function of the relay, the tracker and what the network does
(`Relay.receive`). Whether a transmission succeeds is not the relay's to decide, so it is asked of
the `Network`, attempt by attempt; the `Receipt` lists every attempt.
-/

namespace DhcpRelay.V4

open Interface (Property)

/-! ## Counted message types -/

/-- The message types that have arrived, of those that are noted. -/
structure Sightings where
  discover : Bool := false
  request : Bool := false
  offer : Bool := false
  ack : Bool := false
  deriving DecidableEq, Repr, Inhabited

namespace Sightings

/-- Notes the arrival of a message. -/
def note (s : Sightings) : MessageType → Sightings
  | .discover => { s with discover := true }
  | .request => { s with request := true }
  | .offer => { s with offer := true }
  | .ack => { s with ack := true }
  | _ => s

/-- The members of a client record. -/
def members (s : Sightings) : List (String × Json) :=
  [seenMember "client_discover" s.discover, seenMember "client_request" s.request,
    seenMember "server_offer" s.offer, seenMember "server_ack" s.ack]

end Sightings

/-! ## Data -/

/-- The port of servers and relays. -/
def serverPort : UInt16 := 67

/-- The port of clients. -/
def clientPort : UInt16 := 68

/-- A datagram that the relay receives. -/
structure Datagram where
  ingress : Int
  source : V4Address
  payload : Bytes
  deriving DecidableEq, Repr

/-- Where a datagram is sent. -/
structure Destination where
  address : V4Address
  port : UInt16
  deriving DecidableEq, Repr

/-- An attempt to send a datagram. -/
structure Transmission where
  destination : Destination
  payload : Bytes
  accepted : Bool
  deriving DecidableEq, Repr

/-- An attempt to send a frame. -/
structure FrameTransmission where
  handle : Handle
  frame : Bytes
  accepted : Bool
  deriving DecidableEq, Repr

/-- What the network does with what the relay attempts. -/
structure Network where
  /-- Whether the network takes the n-th transmission of a step to a destination. -/
  accepts : Nat → Destination → Bool
  /-- The hardware address of the interface if the n-th opening of the relay's life succeeds. -/
  opens : Nat → String → Int → Option HardwareAddress
  sends : Handle → Bytes → Bool

/-- What came of one datagram. -/
structure Receipt where
  outcome : Outcome
  /-- The transmissions that were attempted, in order. -/
  sent : List Transmission := []
  /-- The frames that were attempted, in order. -/
  frames : List FrameTransmission := []
  deriving DecidableEq, Repr

/-- The state of the relay. -/
structure Relay where
  /-- The interface on which each client was last seen, by the client's hardware address. -/
  peers : SortedTable String String := ∅
  counters : Counters Sightings := {}
  /-- The open handles by the index of their interface. -/
  handles : SortedTable Int Handle := ∅
  /-- The attempts to open a link, first to last. -/
  openings : List Opening := []
  deriving DecidableEq

namespace Relay

/-! ## Handles -/

/-- Opens a handle and keeps it under the interface's index. -/
def openHandle (net : Network) (r : Relay) (name : String) (index : Int) : Option Handle × Relay :=
  match net.opens r.openings.length name index with
  | some mac =>
    let handle := ⟨(r.openings.filter (·.opened)).length + 1, name, mac⟩
    (some handle, { r with
      handles := r.handles.insert index handle, openings := r.openings ++ [⟨name, index, true⟩] })
  | none => (none, { r with openings := r.openings ++ [⟨name, index, false⟩] })

/-- Opens the handle of an interface that became active, also if one is open. -/
def openLink (net : Network) (t : Tracker) (r : Relay) (index : Int) : Relay :=
  match t.props.get? index with
  | some p => (r.openHandle net p.name index).2
  | none => r

/-- Closes the handle of an interface. -/
def closeLink (r : Relay) (index : Int) : Relay := { r with handles := r.handles.erase index }

/-- Closes every handle. -/
def closeLinks (r : Relay) : Relay := { r with handles := ∅ }

/-- The handle of an interface, opened if there is none. -/
def handle (net : Network) (r : Relay) (p : Property) : Option Handle × Relay :=
  match r.handles.get? p.index with
  | some h => (some h, r)
  | none => r.openHandle net p.name p.index

/-! ## Requests -/

/-- Drops a message and counts it on an interface. -/
def drop (r : Relay) (name : String) (reason : DropReason) : Receipt × Relay :=
  (⟨.dropped reason, [], []⟩, { r with counters := r.counters.drop name })

/-- Notes a request that may be relayed: where its client is, and that it arrived. -/
def noteRequest (r : Relay) (name : String) (type : MessageType) (p : Packet) : Relay :=
  let key := p.clientKey
  { r with
    peers := r.peers.insert key name
    counters :=
      (r.counters.onInterface name fun i => { i with clientRx := i.clientRx + 1 }).onClient
        key fun c =>
          { c with
            clientRequests := c.clientRequests + 1
            seen := c.seen.note type
            requestedIp := match type, p.requestedIp? with
              | .request, some ip => ip.text
              | _, _ => c.requestedIp } }

/-- The servers to which a request goes; `none` if it has to name one and does not. -/
def servers? (config : InterfaceConfig) (type : MessageType) (p : Packet) :
    Option (List V4Address) :=
  match type with
  | .discover => some (config.servers.filterMap V4Address.parse?)
  | _ => p.serverId?.map ([·])

/-- A request as it is sent to servers by a relay whose address on the client's link is
`address`. -/
def forwarded (address : V4Address) (type : MessageType) (p : Packet) : Packet :=
  { p.relayed bootRequest (relayOptions type.code p.options) with
    hops := if p.hops = 255 then 255 else p.hops + 1
    giaddr := if p.giaddr.isUnspecified then address else p.giaddr }

/-- Counts a request that was sent to a server. -/
def noteSent (name client : String) (c : Counters Sightings) (server : V4Address) :
    Counters Sightings :=
  ((c.onInterface name fun i => { i with serverTx := i.serverTx + 1 }).onServer name server.text
    fun s => { s with requests := s.requests + 1 }).onClient client
      fun r => { r with serverRequests := r.serverRequests + 1, serverIp := server.text }

/-- The n-th attempt of a step to send octets, to a server. -/
def attempt (net : Network) (payload : Bytes) (n : Nat) (server : V4Address) : Transmission :=
  let destination : Destination := ⟨server, serverPort⟩
  ⟨destination, payload, net.accepts n destination⟩

/-- Sends octets to servers, each once; a failure does not keep the others from being tried. -/
def sendToServers (net : Network) (r : Relay) (name client : String) (payload : Bytes)
    (servers : List V4Address) : Receipt × Relay :=
  let sent := servers.mapIdx (attempt net payload)
  let reached := (sent.filter (·.accepted)).map (·.destination.address)
  let r := { r with counters := reached.foldl (noteSent name client) r.counters }
  if reached.isEmpty then
    let (receipt, r) := r.drop name .noServerReachable
    ({ receipt with sent }, r)
  else (⟨.relayed reached.length, sent, []⟩, r)

/-- Relays a request that arrived on the interface `ingress`. -/
def relayRequest (net : Network) (t : Tracker) (r : Relay) (ingress : Property) (type : MessageType)
    (p : Packet) : Receipt × Relay :=
  let name := ingress.name
  match t.activeAt? ingress.index with
  | none => r.drop name .notActive
  | some active =>
    match active.property.v4Address? with
    | none => r.drop name .noAddress
    | some address =>
      if t.hopLimit ≤ p.hops then r.drop name .hopLimit
      else
        let r := r.noteRequest name type p
        match servers? active.config type p with
        | none => r.drop name .missingServerId
        | some servers =>
          r.sendToServers net name p.clientKey (forwarded address type p).encode servers

/-! ## Replies -/

/-- Notes a reply to a known client. -/
def noteReply (r : Relay) (ingress : String) (type : MessageType) (p : Packet) : Relay :=
  { r with
    counters :=
      (r.counters.onInterface ingress fun i => { i with serverRx := i.serverRx + 1 }).onClient
        p.clientKey fun c =>
          { c with
            serverResponses := c.serverResponses + 1
            seen := c.seen.note type
            offeredIp := if type = .offer then p.yiaddr.text else c.offeredIp
            acceptedIp := if type = .ack then p.yiaddr.text else c.acceptedIp } }

/-- Where a reply goes on the client's link: to the client itself if it has an Ethernet address and
an IPv4 address, does not want a broadcast, and is not being refused. -/
def replyDestination (type : MessageType) (p : Packet) : V4Address × HardwareAddress :=
  match p.etherAddress? with
  | some mac =>
    if type ≠ .nak ∧ !p.isBroadcast ∧ !p.yiaddr.isUnspecified then (p.yiaddr, mac)
    else (.broadcast, .broadcast)
  | none => (.broadcast, .broadcast)

/-- The frame with a reply, from the interface address `source` through `handle`. -/
def replyFrame (handle : Handle) (source : V4Address) (type : MessageType) (p : Packet) : Bytes :=
  let (dstIp, dstMac) := replyDestination type p
  let addresses : FrameAddresses :=
    { srcMac := handle.mac, dstMac, srcIp := source, dstIp, srcPort := serverPort,
      dstPort := clientPort }
  addresses.frame (p.relayed bootReply (relayOptions type.code p.options)).encode

/-- Counts a reply that was delivered. -/
def noteDelivered (name client : String) (server : V4Address) (c : Counters Sightings) :
    Counters Sightings :=
  ((c.onInterface name fun i => { i with clientTx := i.clientTx + 1 }).onServer name server.text
    fun s => { s with responses := s.responses + 1 }).onClient client
      fun r => { r with clientResponses := r.clientResponses + 1 }

/-- Sends a reply through an open handle. -/
def sendReply (net : Network) (r : Relay) (name : String) (handle : Handle) (frame : Bytes)
    (server : V4Address) (p : Packet) : Receipt × Relay :=
  if net.sends handle frame then
    (⟨.delivered name, [], [⟨handle, frame, true⟩]⟩,
      { r with counters := noteDelivered name p.clientKey server r.counters })
  else
    let (receipt, r) := r.drop name .linkSendFailed
    ({ receipt with frames := [⟨handle, frame, false⟩] }, r)

/-- Relays a reply that arrived on the interface `ingress` from `server`. -/
def relayReply (net : Network) (t : Tracker) (r : Relay) (ingress : Property) (server : V4Address)
    (type : MessageType) (p : Packet) : Receipt × Relay :=
  match r.peers.get? p.clientKey with
  | none => (⟨.dropped .unknownClient, [], []⟩, r)
  | some name =>
    let r := r.noteReply ingress.name type p
    match t.activeNamed? name with
    | none => r.drop name .egressNotActive
    | some egress =>
      match egress.property.v4Address? with
      | none => r.drop name .egressNoAddress
      | some source =>
        match r.handle net egress.property with
        | (none, r) => r.drop name .handleUnavailable
        | (some handle, r) =>
          r.sendReply net name handle (replyFrame handle source type p) server p

/-! ## Datagrams -/

/-- Handles one datagram. It is ignored if its interface is unknown, if it is no packet, or if it
has no message type that a relay handles. -/
def receive (net : Network) (t : Tracker) (r : Relay) (d : Datagram) : Receipt × Relay :=
  match t.props.get? d.ingress, Packet.parse d.payload with
  | some ingress, .ok p =>
    match p.messageCode? >>= MessageType.ofCode? with
    | none => (⟨.ignored, [], []⟩, r)
    | some type =>
      if type.isRequest then r.relayRequest net t ingress type p
      else r.relayReply net t ingress d.source type p
  | _, _ => (⟨.ignored, [], []⟩, r)

end Relay

end DhcpRelay.V4
