import DhcpRelay.Counters
import DhcpRelay.Outcome
import DhcpRelay.Tracker
import DhcpRelay.V6.Message

/-!
# The DHCPv6 relay

Messages of clients, and of relays nearer to them, are put unchanged into a relay message and sent
to every configured server and, on every upstream interface, to all servers of the link. A relay
message that comes back is unwrapped one level and goes to the peer it names, on the interface on
which that peer was last seen.

As in DHCPv4, one datagram is one step (`Relay.receive`), the success of a transmission is asked of
the `Network`, and the `Receipt` lists every attempt.
-/

namespace DhcpRelay.V6

open Interface (Property)

/-! ## Counted message types

Eight types that clients send and three that servers send are noted in a client's record, each on
the side from which it came: a type that belongs to the other side is not noted. -/

/-- The message types that have arrived, of those that are noted. -/
structure Sightings where
  solicit : Bool := false
  request : Bool := false
  confirm : Bool := false
  renew : Bool := false
  rebind : Bool := false
  release : Bool := false
  decline : Bool := false
  informationRequest : Bool := false
  advertise : Bool := false
  reply : Bool := false
  reconfigure : Bool := false
  deriving DecidableEq, Repr, Inhabited

namespace Sightings

/-- Notes the arrival of a message from a client. -/
def noteClient (s : Sightings) (code : UInt8) : Sightings :=
  match MessageType.ofCode? code with
  | some .solicit => { s with solicit := true }
  | some .request => { s with request := true }
  | some .confirm => { s with confirm := true }
  | some .renew => { s with renew := true }
  | some .rebind => { s with rebind := true }
  | some .release => { s with release := true }
  | some .decline => { s with decline := true }
  | some .informationRequest => { s with informationRequest := true }
  | _ => s

/-- Notes the arrival of a message from a server. -/
def noteServer (s : Sightings) (code : UInt8) : Sightings :=
  match MessageType.ofCode? code with
  | some .advertise => { s with advertise := true }
  | some .reply => { s with reply := true }
  | some .reconfigure => { s with reconfigure := true }
  | _ => s

/-- The members of a client record. -/
def members (s : Sightings) : List (String × Json) :=
  [seenMember "client_solicit" s.solicit, seenMember "client_request" s.request,
    seenMember "client_confirm" s.confirm, seenMember "client_renew" s.renew,
    seenMember "client_rebind" s.rebind, seenMember "client_release" s.release,
    seenMember "client_decline" s.decline, seenMember "client_info_request" s.informationRequest,
    seenMember "server_advertise" s.advertise, seenMember "server_reply" s.reply,
    seenMember "server_reconfigure" s.reconfigure]

end Sightings

/-! ## Data -/

/-- The port of servers and relays. -/
def serverPort : UInt16 := 547

/-- The port of clients. -/
def clientPort : UInt16 := 546

/-- A datagram that the relay receives. -/
structure Datagram where
  ingress : Int
  source : V6Address
  payload : Bytes
  deriving DecidableEq, Repr

/-- Where a datagram is sent. -/
structure Destination where
  address : V6Address
  port : UInt16
  /-- The link that is meant, for an address that is unique on its link only; otherwise 0. -/
  scope : Nat
  deriving DecidableEq, Repr

/-- An attempt to send a datagram. -/
structure Transmission where
  destination : Destination
  payload : Bytes
  accepted : Bool
  deriving DecidableEq, Repr

/-- What the network does: whether it takes the n-th transmission of a step to a destination. -/
structure Network where
  accepts : Nat → Destination → Bool

/-- What came of one datagram. -/
structure Receipt where
  outcome : Outcome
  /-- The transmissions that were attempted, in order. -/
  sent : List Transmission := []
  deriving DecidableEq, Repr

/-- The state of the relay. -/
structure Relay where
  /-- The interface on which each peer was last seen, by the peer's address. -/
  peers : SortedTable V6Address String := ∅
  counters : Counters Sightings := {}
  deriving DecidableEq

/-- The scope of an interface's link: its index as a word of 32 bits. -/
def scopeOf (index : Int) : Nat := (index % UInt32.size).toNat

namespace Relay

/-- Drops a message and counts it on an interface. -/
def drop (r : Relay) (name : String) (reason : DropReason) : Receipt × Relay :=
  (⟨.dropped reason, []⟩, { r with counters := r.counters.drop name })

/-! ## Towards servers -/

/-- Notes where a peer is and that a message of it arrived. -/
def notePeer (r : Relay) (name : String) (peer : V6Address) : Relay :=
  { r with
    peers := r.peers.insert peer name
    counters := r.counters.onInterface name fun i => { i with clientRx := i.clientRx + 1 } }

/-- Notes a client's message. -/
def noteRequest (r : Relay) (client : String) (m : ClientMessage) : Relay :=
  { r with
    counters := r.counters.onClient client fun c =>
      { c with
        clientRequests := c.clientRequests + 1
        seen := c.seen.noteClient m.type
        requestedIp :=
          if m.type = MessageType.request.code then
            (m.leaseAddress?.map V6Address.text).getD c.requestedIp
          else c.requestedIp } }

/-- Where messages of an active interface are sent: the servers whose text is an address, then the
upstream interfaces that have a link-local address. Each destination comes with the text under
which it is counted. -/
def destinations (t : Tracker) (config : InterfaceConfig) : List (Destination × String) :=
  (config.servers.filterMap fun server =>
    (V6Address.parse? server).map fun address => (⟨address, serverPort, 0⟩, server)) ++
  (config.upstreams.filterMap fun name =>
    (t.linkLocal.find? name).map fun p =>
      (⟨.allRelayAgentsAndServers, serverPort, scopeOf p.index⟩,
        V6Address.allRelayAgentsAndServers.text ++ "%" ++ name))

/-- Counts a message that was sent to the server of the given text. -/
def noteSent (name : String) (client : Option String) (c : Counters Sightings) (server : String) :
    Counters Sightings :=
  let c := (c.onInterface name fun i => { i with serverTx := i.serverTx + 1 }).onServer name server
    fun s => { s with requests := s.requests + 1 }
  match client with
  | some client =>
    c.onClient client fun r =>
      { r with serverRequests := r.serverRequests + 1, serverIp := server }
  | none => c

/-- Sends octets to every destination, each once; a failure does not keep the others from being
tried. -/
def sendUpstream (net : Network) (t : Tracker) (r : Relay) (active : ActiveInterface)
    (client : Option String) (payload : Bytes) : Receipt × Relay :=
  let name := active.property.name
  let attempts := (destinations t active.config).mapIdx fun n (destination, server) =>
    ((⟨destination, payload, net.accepts n destination⟩ : Transmission), server)
  let sent := attempts.map (·.1)
  let reached := (attempts.filter (·.1.accepted)).map (·.2)
  let r := { r with counters := reached.foldl (noteSent name client) r.counters }
  if reached.isEmpty then
    let (receipt, r) := r.drop name .noServerReachable
    ({ receipt with sent }, r)
  else (⟨.relayed reached.length, sent⟩, r)

/-- Relays the message of a client on the interface called `name`. -/
def relayClientMessage (net : Network) (t : Tracker) (r : Relay) (name : String) (d : Datagram) :
    Receipt × Relay :=
  match t.activeAt? d.ingress with
  | none => r.drop name .notActive
  | some active =>
    match ClientMessage.parse d.payload with
    | .error _ => (⟨.ignored, []⟩, r)
    | .ok m =>
      let client := m.ether?.map HardwareAddress.text
      let r := r.notePeer name d.source
      let r := match client with
        | some client => r.noteRequest client m
        | none => r
      let link := active.property.v6Address?.getD .unspecified
      r.sendUpstream net t active client (RelayMessage.forward 1 link d.source d.payload).encode

/-- Relays the message of another relay on the interface called `name`. The link address matters
for a peer that is unique on its link only. -/
def relayForward (net : Network) (t : Tracker) (r : Relay) (name : String) (d : Datagram) :
    Receipt × Relay :=
  match t.activeAt? d.ingress with
  | none => r.drop name .notActive
  | some active =>
    match RelayMessage.parse d.payload with
    | .error _ => (⟨.ignored, []⟩, r)
    | .ok m =>
      let r := r.notePeer name d.source
      if t.hopLimit ≤ m.hopCount then r.drop name .hopLimit
      else
        let link := if d.source.isLinkLocal then active.property.v6Address?.getD .unspecified
          else .unspecified
        r.sendUpstream net t active none
          (RelayMessage.forward (m.hopCount + 1) link d.source d.payload).encode

/-! ## Towards clients -/

/-- The client to which the message inside a reply is addressed: its hardware address in text, and
the message. A message to another relay has none. -/
def replyClient? (inner : Bytes) : Option (String × ClientMessage) := do
  guard (inner.head?.all fun type => !MessageType.isRelayMessage type)
  let m ← (ClientMessage.parse inner).toOption
  return ((← m.ether?).text, m)

/-- Notes a reply that will go out on the interface called `name`. -/
def noteReply (r : Relay) (name : String) (client : Option (String × ClientMessage)) : Relay :=
  let counters := r.counters.onInterface name fun i => { i with serverRx := i.serverRx + 1 }
  match client with
  | none => { r with counters }
  | some (client, m) =>
    let lease := m.leaseAddress?.map V6Address.text
    { r with
      counters := counters.onClient client fun c =>
        { c with
          serverResponses := c.serverResponses + 1
          seen := c.seen.noteServer m.type
          offeredIp := if m.type = MessageType.advertise.code then lease.getD c.offeredIp
            else c.offeredIp
          acceptedIp := if m.type = MessageType.reply.code then lease.getD c.acceptedIp
            else c.acceptedIp } }

/-- Counts a reply that was delivered. -/
def noteDelivered (name : String) (client : Option String) (server : V6Address)
    (c : Counters Sightings) : Counters Sightings :=
  let c := (c.onInterface name fun i => { i with clientTx := i.clientTx + 1 }).onServer name
    server.text fun s => { s with responses := s.responses + 1 }
  match client with
  | some client => c.onClient client fun r => { r with clientResponses := r.clientResponses + 1 }
  | none => c

/-- Where the message inside a reply is sent, from an interface with the given index. -/
def replyDestination (index : Int) (peer : V6Address) (inner : Bytes) : Destination :=
  ⟨peer, if inner.head?.any MessageType.isRelayMessage then serverPort else clientPort,
    if peer.isLinkLocal then scopeOf index else 0⟩

/-- Sends the message inside a reply to the peer it is for. -/
def sendReply (net : Network) (r : Relay) (name : String) (index : Int) (server peer : V6Address)
    (client : Option String) (inner : Bytes) : Receipt × Relay :=
  let destination := replyDestination index peer inner
  if net.accepts 0 destination then
    (⟨.delivered name, [⟨destination, inner, true⟩]⟩,
      { r with counters := noteDelivered name client server r.counters })
  else
    let (receipt, r) := r.drop name .sendFailed
    ({ receipt with sent := [⟨destination, inner, false⟩] }, r)

/-- Delivers the message inside a reply. -/
def relayReply (net : Network) (t : Tracker) (r : Relay) (d : Datagram) : Receipt × Relay :=
  match RelayMessage.parse d.payload with
  | .error _ => (⟨.ignored, []⟩, r)
  | .ok m =>
    match m.relayMessage with
    | .error _ => (⟨.ignored, []⟩, r)
    | .ok [] => (⟨.ignored, []⟩, r)
    | .ok inner =>
      match r.peers.get? m.peerAddress with
      | none => (⟨.dropped .unknownPeer, []⟩, r)
      | some name =>
        let client := replyClient? inner
        let r := r.noteReply name client
        match t.activeNamed? name with
        | none => r.drop name .egressNotActive
        | some egress =>
          r.sendReply net name egress.property.index d.source m.peerAddress (client.map (·.1)) inner

/-! ## Datagrams -/

/-- The name of the interface of an index, in whichever table it stands. -/
def ingressName? (t : Tracker) (index : Int) : Option String :=
  ((t.props.get? index).or (t.linkLocal.get? index)).map (·.name)

/-- Handles one datagram. It is ignored if it is empty, if its interface is unknown, or if its type
is not one that a relay handles. -/
def receive (net : Network) (t : Tracker) (r : Relay) (d : Datagram) : Receipt × Relay :=
  match d.payload.head? >>= MessageType.ofCode?, ingressName? t d.ingress with
  | some type, some name =>
    if type.isClientMessage then r.relayClientMessage net t name d
    else match type with
      | .relayForward => r.relayForward net t name d
      | .relayReply => r.relayReply net t d
      | _ => (⟨.ignored, []⟩, r)
  | _, _ => (⟨.ignored, []⟩, r)

end Relay

end DhcpRelay.V6
