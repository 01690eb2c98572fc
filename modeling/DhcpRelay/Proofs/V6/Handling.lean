import DhcpRelay.Proofs.V6.Message
import DhcpRelay.V6.Relay

/-!
# What a relay does with a datagram

The handling of a datagram has eight ends, each with its guards (`Relay.Handled`), and whatever a
relay does with a datagram is one of them (`Relay.handled_receive`). What is sent follows from the
end: on the way to the servers every transmission carries the same relay message around what was
received, and on the way back there is one transmission of what was inside.
-/

namespace DhcpRelay

/-- The address that stands for the link of an interface. -/
def ActiveInterface.linkAddress (a : ActiveInterface) : V6Address :=
  a.property.v6Address?.getD .unspecified

namespace V6

/-! ## Messages -/

/-- The type of a message by its first octet. -/
def messageType? (payload : Bytes) : Option MessageType := payload.head? >>= MessageType.ofCode?

/-- Whether a message is of a type that clients send. -/
def isClientMessage (payload : Bytes) : Bool := (messageType? payload).any (·.isClientMessage)

/-- Whether a message can be relayed towards the servers: a client's or another relay's, with all of
its header. -/
def isRequest (payload : Bytes) : Bool :=
  isClientMessage payload && decide (clientHeaderSize ≤ payload.length) ||
    messageType? payload == some .relayForward && decide (relayHeaderSize ≤ payload.length)

/-- A reply that can be read, and the message inside. -/
structure IsReply (payload : Bytes) (m : RelayMessage) (inner : Bytes) : Prop where
  type_eq : messageType? payload = some .relayReply
  parse_eq : RelayMessage.parse payload = .ok m
  inner_eq : m.relayMessage = .ok inner
  ne_nil : inner ≠ []

/-- A message between client and server can be read unless its header is cut short. -/
theorem ClientMessage.parse_cases : ∀ payload : Bytes,
    (payload.length < clientHeaderSize ∧ ∃ e, ClientMessage.parse payload = .error e) ∨
    (clientHeaderSize ≤ payload.length ∧ ∃ m, ClientMessage.parse payload = .ok m)
  | [] | [_] | [_, _] | [_, _, _] => .inl ⟨by simp [clientHeaderSize], _, rfl⟩
  | _ :: _ :: _ :: _ :: _ => .inr ⟨by simp [clientHeaderSize], _, rfl⟩

/-- A relay message can be read unless its header is cut short. -/
theorem RelayMessage.parse_cases (payload : Bytes) :
    (payload.length < relayHeaderSize ∧ ∃ e, RelayMessage.parse payload = .error e) ∨
    (relayHeaderSize ≤ payload.length ∧ ∃ m, RelayMessage.parse payload = .ok m) := by
  unfold RelayMessage.parse
  split
  · next hshort => exact .inl ⟨hshort, _, rfl⟩
  · next hlong => exact .inr ⟨by omega, _, rfl⟩

/-- The first octet of a relay message is its type. -/
theorem RelayMessage.head?_of_parse {payload : Bytes} {m : RelayMessage}
    (h : RelayMessage.parse payload = .ok m) : payload.head? = some m.type := by
  unfold RelayMessage.parse at h
  split at h
  · cases h
  · obtain rfl := Except.ok.inj h
    rw [List.head?_eq_getElem?, List.getElem?_eq_getElem]

namespace Relay

/-! ## The ends of the handling -/

/-- The interface on which a datagram shows its sender. -/
def sighting? (t : Tracker) (d : Datagram) : Option String :=
  if isRequest d.payload then (t.activeAt? d.ingress).map (·.property.name) else none

/-- Notes a client and its message. -/
def noteClient (r : Relay) (name : String) (peer : V6Address) (m : ClientMessage) : Relay :=
  match m.ether?.map HardwareAddress.text with
  | some client => (r.notePeer name peer).noteRequest client m
  | none => r.notePeer name peer

/-- The message with which a client's message goes on. -/
def clientForward (a : ActiveInterface) (d : Datagram) : RelayMessage :=
  .forward 1 a.linkAddress d.source d.payload

/-- The message with which another relay's message goes on. -/
def relayedForward (a : ActiveInterface) (m : RelayMessage) (d : Datagram) : RelayMessage :=
  .forward (m.hopCount + 1) (if d.source.isLinkLocal then a.linkAddress else .unspecified) d.source
    d.payload

/-- What can become of a datagram. -/
inductive Handled (net : Network) (t : Tracker) (r : Relay) (d : Datagram) :
    Receipt × Relay → Prop where
  | ignored (hshows : sighting? t d = none) : Handled net t r d (⟨.ignored, []⟩, r)
  | notActive {name : String} {type : MessageType} (hname : ingressName? t d.ingress = some name)
      (htype : messageType? d.payload = some type)
      (hrequest : type.isClientMessage = true ∨ type = .relayForward)
      (hactive : t.activeAt? d.ingress = none) : Handled net t r d (r.drop name .notActive)
  | client {a : ActiveInterface} {m : ClientMessage} (hactive : t.activeAt? d.ingress = some a)
      (hclient : isClientMessage d.payload) (hparse : ClientMessage.parse d.payload = .ok m) :
      Handled net t r d ((r.noteClient a.property.name d.source m).sendUpstream net t a
        (m.ether?.map HardwareAddress.text) (clientForward a d).encode)
  | hopLimit {a : ActiveInterface} {m : RelayMessage} (hactive : t.activeAt? d.ingress = some a)
      (hforward : messageType? d.payload = some .relayForward)
      (hparse : RelayMessage.parse d.payload = .ok m) (hlimit : t.hopLimit ≤ m.hopCount) :
      Handled net t r d ((r.notePeer a.property.name d.source).drop a.property.name .hopLimit)
  | forward {a : ActiveInterface} {m : RelayMessage} (hactive : t.activeAt? d.ingress = some a)
      (hforward : messageType? d.payload = some .relayForward)
      (hparse : RelayMessage.parse d.payload = .ok m) (hlimit : m.hopCount < t.hopLimit) :
      Handled net t r d ((r.notePeer a.property.name d.source).sendUpstream net t a none
        (relayedForward a m d).encode)
  | unknownPeer {m : RelayMessage} {inner : Bytes} (hreply : IsReply d.payload m inner)
      (hpeer : r.peers.get? m.peerAddress = none) :
      Handled net t r d (⟨.dropped .unknownPeer, []⟩, r)
  | egressNotActive {m : RelayMessage} {inner : Bytes} {name : String}
      (hreply : IsReply d.payload m inner) (hpeer : r.peers.get? m.peerAddress = some name)
      (hegress : t.activeNamed? name = none) :
      Handled net t r d ((r.noteReply name (replyClient? inner)).drop name .egressNotActive)
  | reply {m : RelayMessage} {inner : Bytes} {name : String} {egress : ActiveInterface}
      (hreply : IsReply d.payload m inner) (hpeer : r.peers.get? m.peerAddress = some name)
      (hegress : t.activeNamed? name = some egress) :
      Handled net t r d ((r.noteReply name (replyClient? inner)).sendReply net name
        egress.property.index d.source m.peerAddress ((replyClient? inner).map (·.1)) inner)

section
variable {net : Network} {t : Tracker} {r : Relay} {d : Datagram} {a : ActiveInterface}

/-- An active interface has the name under which datagrams arrive on it. -/
theorem ingressName?_of_activeAt? {i : Int} (h : t.activeAt? i = some a) :
    ingressName? t i = some a.property.name := by
  simp only [Tracker.activeAt?, Option.bind_eq_bind, Option.bind_eq_some_iff, Option.pure_def,
    Option.some.injEq] at h
  obtain ⟨c, -, p, hp, rfl⟩ := h
  simp [ingressName?, hp]

/-! ## What the ends show -/

/-- On an interface that is not active nothing is shown. -/
theorem sighting?_of_not_active (h : t.activeAt? d.ingress = none) : sighting? t d = none := by
  simp [sighting?, h]

/-- A client's message shows the client. -/
theorem sighting?_of_client {m : ClientMessage} (hactive : t.activeAt? d.ingress = some a)
    (hclient : isClientMessage d.payload) (hparse : ClientMessage.parse d.payload = .ok m) :
    sighting? t d = some a.property.name := by
  obtain ⟨-, e, he⟩ | ⟨hlong, -⟩ := ClientMessage.parse_cases d.payload
  · rw [hparse] at he
    cases he
  · simp [sighting?, isRequest, hactive, hclient, hlong]

/-- Another relay's message shows that relay. -/
theorem sighting?_of_forward {m : RelayMessage} (hactive : t.activeAt? d.ingress = some a)
    (hforward : messageType? d.payload = some .relayForward)
    (hparse : RelayMessage.parse d.payload = .ok m) : sighting? t d = some a.property.name := by
  obtain ⟨-, e, he⟩ | ⟨hlong, -⟩ := RelayMessage.parse_cases d.payload
  · rw [hparse] at he
    cases he
  · simp [sighting?, isRequest, hactive, hforward, hlong]

/-- A reply shows nobody, whatever it holds. -/
theorem sighting?_of_reply (h : messageType? d.payload = some .relayReply) :
    sighting? t d = none := by
  simp [sighting?, isRequest, isClientMessage, h, MessageType.isClientMessage]

/-- What shows its sender is a client's or another relay's message on an interface that is known. -/
theorem of_sighting? {name : String} (h : sighting? t d = some name) :
    ingressName? t d.ingress = some name ∧ ∃ type, messageType? d.payload = some type ∧
      (type.isClientMessage = true ∨ type = .relayForward) := by
  unfold sighting? at h
  split at h
  · next hrequest =>
    obtain ⟨a, ha, rfl⟩ := Option.map_eq_some_iff.1 h
    refine ⟨ingressName?_of_activeAt? ha, ?_⟩
    simp only [isRequest, isClientMessage, Bool.or_eq_true, Bool.and_eq_true, Option.any_eq_true,
      beq_iff_eq] at hrequest
    obtain ⟨⟨type, htype, hclient⟩, -⟩ | ⟨hforward, -⟩ := hrequest
    · exact ⟨type, htype, .inl hclient⟩
    · exact ⟨_, hforward, .inr rfl⟩
  · cases h

/-- A datagram that cannot be read shows nobody. -/
theorem sighting?_of_unreadable {type : MessageType} (htype : messageType? d.payload = some type)
    (hclient : type.isClientMessage = true → d.payload.length < clientHeaderSize)
    (hforward : type = .relayForward → d.payload.length < relayHeaderSize) :
    sighting? t d = none := by
  have hnot : isRequest d.payload = false := by
    rw [Bool.eq_false_iff]
    intro h
    simp only [isRequest, isClientMessage, htype, Option.any_some, Bool.or_eq_true,
      Bool.and_eq_true, decide_eq_true_eq, beq_iff_eq, Option.some.injEq] at h
    obtain ⟨hc, hlong⟩ | ⟨hf, hlong⟩ := h
    · exact absurd (hclient hc) (by omega)
    · exact absurd (hforward hf) (by omega)
  simp [sighting?, hnot]

/-! ## All ends -/

/-- The ends of a client's message. -/
theorem handled_relayClientMessage {name : String} {type : MessageType} (r : Relay)
    (hname : ingressName? t d.ingress = some name) (htype : messageType? d.payload = some type)
    (hclient : type.isClientMessage = true) :
    Handled net t r d (r.relayClientMessage net t name d) := by
  unfold relayClientMessage
  cases hactive : t.activeAt? d.ingress with
  | none => exact .notActive hname htype (.inl hclient) hactive
  | some a =>
    obtain rfl := Option.some.inj (hname.symm.trans (ingressName?_of_activeAt? hactive))
    obtain ⟨hshort, e, he⟩ | ⟨-, m, hm⟩ := ClientMessage.parse_cases d.payload
    · simp only [he]
      refine .ignored (sighting?_of_unreadable htype (fun _ => hshort) fun hf => ?_)
      rw [hf] at hclient
      cases hclient
    · simp only [hm]
      exact .client hactive (by simp [isClientMessage, htype, hclient]) hm

/-- The ends of another relay's message. -/
theorem handled_relayForward {name : String} (r : Relay)
    (hname : ingressName? t d.ingress = some name)
    (htype : messageType? d.payload = some .relayForward) :
    Handled net t r d (r.relayForward net t name d) := by
  unfold relayForward
  cases hactive : t.activeAt? d.ingress with
  | none => exact .notActive hname htype (.inr rfl) hactive
  | some a =>
    obtain rfl := Option.some.inj (hname.symm.trans (ingressName?_of_activeAt? hactive))
    obtain ⟨hshort, e, he⟩ | ⟨-, m, hm⟩ := RelayMessage.parse_cases d.payload
    · simp only [he]
      exact .ignored (sighting?_of_unreadable htype nofun fun _ => hshort)
    · simp only [hm]
      split
      · next hlimit => exact .hopLimit hactive htype hm hlimit
      · next hlimit => exact .forward hactive htype hm (UInt8.not_le.1 hlimit)

/-- The ends of a reply. -/
theorem handled_relayReply (r : Relay) (htype : messageType? d.payload = some .relayReply) :
    Handled net t r d (r.relayReply net t d) := by
  have hignored : Handled net t r d (⟨.ignored, []⟩, r) :=
    .ignored (sighting?_of_unreadable htype nofun nofun)
  unfold relayReply
  split
  · exact hignored
  · next m hparse =>
    split
    · exact hignored
    · exact hignored
    · next inner hne hinner =>
      have hreply : IsReply d.payload m inner := ⟨htype, hparse, hinner, fun h => hne h⟩
      cases hpeer : r.peers.get? m.peerAddress with
      | none => exact .unknownPeer hreply hpeer
      | some name =>
        dsimp only
        cases hegress : t.activeNamed? name with
        | none => exact .egressNotActive hreply hpeer hegress
        | some egress => exact .reply hreply hpeer hegress

/-- Whatever a relay does with a datagram is one of the ends. -/
theorem handled_receive (net : Network) (t : Tracker) (r : Relay) (d : Datagram) :
    Handled net t r d (r.receive net t d) := by
  unfold receive
  split
  · next type name htype hname =>
    split
    · next hclient => exact handled_relayClientMessage r hname htype hclient
    · next hclient =>
      split
      · exact handled_relayForward r hname htype
      · exact handled_relayReply r htype
      · next hforward hreply =>
        exact .ignored (sighting?_of_unreadable htype (fun h => absurd h hclient)
          fun h => absurd h hforward)
  · next hunknown =>
    refine .ignored (Option.eq_none_iff_forall_ne_some.2 fun name hs => ?_)
    obtain ⟨hname, type, htype, -⟩ := of_sighting? hs
    exact hunknown type name htype hname

/-! ## What is sent -/

/-- Every transmission towards the servers carries the octets that are to be sent. -/
theorem payload_of_mem_sendUpstream {client : Option String} {payload : Bytes} {x : Transmission}
    (h : x ∈ (r.sendUpstream net t a client payload).1.sent) : x.payload = payload := by
  have hsent : (r.sendUpstream net t a client payload).1.sent =
      ((destinations t a.config).mapIdx fun n destination =>
        ((⟨destination.1, payload, net.accepts n destination.1⟩ : Transmission),
          destination.2)).map (·.1) := by
    unfold sendUpstream
    dsimp only
    split <;> rfl
  rw [hsent] at h
  obtain ⟨attempt, hattempt, rfl⟩ := List.mem_map.1 h
  obtain ⟨n, hn, rfl⟩ := List.mem_mapIdx.1 hattempt
  rfl

/-- What is sent towards the servers is not delivered to anyone. -/
theorem outcome_sendUpstream (client : Option String) (payload : Bytes) (name : String) :
    (r.sendUpstream net t a client payload).1.outcome ≠ .delivered name := by
  unfold sendUpstream
  dsimp only
  split <;> exact nofun

/-- Transmissions come of three kinds of message: a client's and another relay's, whose sender has
been seen and which are held by what is sent, and a reply. -/
theorem sent_cases {x : Transmission} (hx : x ∈ (r.receive net t d).1.sent) :
    (isClientMessage d.payload = true ∧ ∃ a, t.activeAt? d.ingress = some a ∧
      sighting? t d = some a.property.name ∧ x.payload = (clientForward a d).encode) ∨
    (messageType? d.payload = some .relayForward ∧ ∃ a m, t.activeAt? d.ingress = some a ∧
      sighting? t d = some a.property.name ∧ RelayMessage.parse d.payload = .ok m ∧
      m.hopCount < t.hopLimit ∧ x.payload = (relayedForward a m d).encode) ∨
    messageType? d.payload = some .relayReply := by
  have h := handled_receive net t r d
  generalize r.receive net t d = result at h hx
  cases h with
  | ignored => cases hx
  | notActive => cases hx
  | client hactive hclient hparse =>
    exact .inl ⟨hclient, _, hactive, sighting?_of_client hactive hclient hparse,
      payload_of_mem_sendUpstream hx⟩
  | hopLimit => cases hx
  | forward hactive hforward hparse hlimit =>
    exact .inr (.inl ⟨hforward, _, _, hactive, sighting?_of_forward hactive hforward hparse, hparse,
      hlimit, payload_of_mem_sendUpstream hx⟩)
  | unknownPeer => cases hx
  | egressNotActive => cases hx
  | reply hreply => exact .inr (.inr hreply.type_eq)

/-- What a client's message makes a relay send holds that message, and the client has been seen. -/
theorem sent_of_client (hclient : isClientMessage d.payload) {x : Transmission}
    (hx : x ∈ (r.receive net t d).1.sent) :
    ∃ a, t.activeAt? d.ingress = some a ∧ sighting? t d = some a.property.name ∧
      x.payload = (clientForward a d).encode := by
  rcases sent_cases hx with ⟨-, h⟩ | ⟨hforward, -⟩ | hreply
  · exact h
  · simp [isClientMessage, hforward, MessageType.isClientMessage] at hclient
  · simp [isClientMessage, hreply, MessageType.isClientMessage] at hclient

/-- What another relay's message makes a relay send holds that message, and that relay has been
seen. -/
theorem sent_of_forward (hforward : messageType? d.payload = some .relayForward) {x : Transmission}
    (hx : x ∈ (r.receive net t d).1.sent) :
    ∃ a m, t.activeAt? d.ingress = some a ∧ sighting? t d = some a.property.name ∧
      RelayMessage.parse d.payload = .ok m ∧ m.hopCount < t.hopLimit ∧
      x.payload = (relayedForward a m d).encode := by
  rcases sent_cases hx with ⟨hclient, -⟩ | ⟨-, h⟩ | hreply
  · simp [isClientMessage, hforward, MessageType.isClientMessage] at hclient
  · exact h
  · cases hforward.symm.trans hreply

/-- A reply makes one transmission, of the message inside. -/
theorem sent_sendReply (name : String) (index : Int) (server peer : V6Address)
    (client : Option String) (inner : Bytes) :
    (r.sendReply net name index server peer client inner).1.sent =
      [⟨replyDestination index peer inner, inner,
        net.accepts 0 (replyDestination index peer inner)⟩] := by
  unfold sendReply
  dsimp only
  split <;> simp [*]

/-- A reply is delivered if the network takes the transmission. -/
theorem outcome_sendReply (name : String) (index : Int) (server peer : V6Address)
    (client : Option String) (inner : Bytes) :
    (r.sendReply net name index server peer client inner).1.outcome =
      if net.accepts 0 (replyDestination index peer inner) then .delivered name
      else .dropped .sendFailed := by
  unfold sendReply
  dsimp only
  split <;> rfl

/-- What is delivered is the message inside a reply, to the peer that the reply names, on the
interface that the table holds for that peer. -/
theorem of_delivered {name : String} (h : (r.receive net t d).1.outcome = .delivered name) :
    ∃ m inner egress, IsReply d.payload m inner ∧ r.peers.get? m.peerAddress = some name ∧
      t.activeNamed? name = some egress ∧ (r.receive net t d).1.sent =
        [⟨replyDestination egress.property.index m.peerAddress inner, inner, true⟩] := by
  have hend := handled_receive net t r d
  generalize r.receive net t d = result at h hend
  cases hend with
  | ignored => cases h
  | notActive => cases h
  | client => exact absurd h (outcome_sendUpstream _ _ _)
  | hopLimit => cases h
  | forward => exact absurd h (outcome_sendUpstream _ _ _)
  | unknownPeer => cases h
  | egressNotActive => cases h
  | reply hreply hpeer hegress =>
    rw [outcome_sendReply] at h
    split at h
    · next haccepts =>
      obtain rfl := Outcome.delivered.inj h
      exact ⟨_, _, _, hreply, hpeer, hegress, by rw [sent_sendReply, haccepts]⟩
    · cases h

/-- A client's message that can be read, on an active interface, is noted and sent to the
servers. -/
theorem receive_of_client {m : ClientMessage} (hactive : t.activeAt? d.ingress = some a)
    (hclient : isClientMessage d.payload) (hparse : ClientMessage.parse d.payload = .ok m) :
    r.receive net t d = (r.noteClient a.property.name d.source m).sendUpstream net t a
      (m.ether?.map HardwareAddress.text) (clientForward a d).encode := by
  obtain ⟨type, htype, hof⟩ := (Option.any_eq_true _ _).1 hclient
  have htype : (d.payload.head? >>= MessageType.ofCode?) = some type := htype
  rw [receive, htype, ingressName?_of_activeAt? hactive]
  simp only [hof, if_true, relayClientMessage, hactive, hparse]
  rfl

/-- Another relay's message that can be read and has not passed too many relays, on an active
interface, is noted and sent to the servers. -/
theorem receive_of_forward {m : RelayMessage} (hactive : t.activeAt? d.ingress = some a)
    (hforward : messageType? d.payload = some .relayForward)
    (hparse : RelayMessage.parse d.payload = .ok m) (hlimit : m.hopCount < t.hopLimit) :
    r.receive net t d = (r.notePeer a.property.name d.source).sendUpstream net t a none
      (relayedForward a m d).encode := by
  have htype : (d.payload.head? >>= MessageType.ofCode?) = some .relayForward := hforward
  rw [receive, htype, ingressName?_of_activeAt? hactive]
  simp only [MessageType.isClientMessage, Bool.false_eq_true, if_false, relayForward, hactive,
    hparse, if_neg (UInt8.not_le.2 hlimit)]
  rfl

/-- A reply on an interface that is known is handled as one. -/
theorem receive_eq_relayReply {ingress : String}
    (hreply : messageType? d.payload = some .relayReply)
    (hingress : ingressName? t d.ingress = some ingress) :
    r.receive net t d = r.relayReply net t d := by
  have htype : (d.payload.head? >>= MessageType.ofCode?) = some .relayReply := hreply
  simp only [receive, htype, hingress, MessageType.isClientMessage, Bool.false_eq_true, if_false]

section
variable {m : RelayMessage} {inner : Bytes} {ingress name : String}

/-- A reply for a peer whose interface is known and active makes one transmission, of the message
inside. -/
theorem receive_of_reply (hreply : IsReply d.payload m inner)
    (hingress : ingressName? t d.ingress = some ingress)
    (hpeer : r.peers.get? m.peerAddress = some name) (hegress : t.activeNamed? name = some a) :
    r.receive net t d = (r.noteReply name (replyClient? inner)).sendReply net name
      a.property.index d.source m.peerAddress ((replyClient? inner).map (·.1)) inner := by
  obtain ⟨octet, rest, rfl⟩ := List.exists_cons_of_ne_nil hreply.ne_nil
  simp only [receive_eq_relayReply hreply.type_eq hingress, relayReply, hreply.parse_eq,
    hreply.inner_eq, hpeer, hegress]

/-- A reply for a peer whose interface is known and not active is noted and dropped. -/
theorem receive_of_reply_not_active (hreply : IsReply d.payload m inner)
    (hingress : ingressName? t d.ingress = some ingress)
    (hpeer : r.peers.get? m.peerAddress = some name) (hegress : t.activeNamed? name = none) :
    r.receive net t d = (r.noteReply name (replyClient? inner)).drop name .egressNotActive := by
  obtain ⟨octet, rest, rfl⟩ := List.exists_cons_of_ne_nil hreply.ne_nil
  simp only [receive_eq_relayReply hreply.type_eq hingress, relayReply, hreply.parse_eq,
    hreply.inner_eq, hpeer, hegress]

end

end

end Relay

end V6

end DhcpRelay
