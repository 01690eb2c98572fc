import DhcpRelay.Proofs.V4.Packet
import DhcpRelay.V4.Relay

/-!
# What a DHCPv4 relay does with a datagram

A datagram that arrives on a known interface and holds a packet of a known type can be read
(`Relay.Reads`). A request is admitted if its interface is active and has an address and if it has
passed fewer relays than the limit (`Relay.Admits`); a reply is expected if its client has been seen
(`Relay.Expects`). The handling of a datagram has eleven ends, each with its guards
(`Relay.Handled`), and whatever a relay does with a datagram is one of them
(`Relay.handled_receive`). Requests are sent at one of them only (`Relay.of_mem_sent`), and replies
are delivered at one of them only (`Relay.of_delivered`).
-/

namespace DhcpRelay.V4

open Interface (Property)

/-- A type is that of its code. -/
theorem MessageType.ofCode?_eq_some_iff {c : UInt8} {type : MessageType} :
    ofCode? c = some type ↔ c = type.code := by
  constructor
  · intro h
    have hfound := List.find?_some (p := fun type : MessageType => type.code == c) h
    exact (beq_iff_eq.1 hfound).symm
  · rintro rfl
    exact ofCode?_code type

namespace Relay

/-! ## The ends of the handling -/

/-- A datagram arrives on a known interface and holds a packet of a known type. -/
structure Reads (t : Tracker) (d : Datagram) (ingress : Property) (type : MessageType)
    (p : Packet) : Prop where
  ingress_eq : t.props.get? d.ingress = some ingress
  parse_eq : Packet.parse d.payload = .ok p
  type_eq : p.messageCode? = some type.code

/-- A request arrives on an interface that is active and has the given address, and it has passed
fewer relays than the limit. -/
structure Admits (t : Tracker) (d : Datagram) (ingress : Property) (active : ActiveInterface)
    (address : V4Address) (type : MessageType) (p : Packet) : Prop
    extends Reads t d ingress type p where
  isRequest : type.isRequest = true
  active_eq : t.activeAt? ingress.index = some active
  address_eq : active.property.v4Address? = some address
  hops_lt : p.hops < t.hopLimit

/-- A reply arrives for a client that has been seen on the interface called `name`. -/
structure Expects (t : Tracker) (r : Relay) (d : Datagram) (ingress : Property)
    (type : MessageType) (p : Packet) (name : String) : Prop
    extends Reads t d ingress type p where
  isReply : type.isRequest = false
  peer_eq : r.peers.get? p.clientKey = some name

/-- What can become of a datagram. -/
inductive Handled (net : Network) (t : Tracker) (r : Relay) (d : Datagram) :
    Receipt × Relay → Prop where
  | ignored (hunread : ∀ ingress type p, ¬ Reads t d ingress type p) :
      Handled net t r d (⟨.ignored, [], []⟩, r)
  | notActive {ingress : Property} {type : MessageType} {p : Packet}
      (hreads : Reads t d ingress type p) (hrequest : type.isRequest = true)
      (hactive : t.activeAt? ingress.index = none) :
      Handled net t r d (r.drop ingress.name .notActive)
  | noAddress {ingress : Property} {type : MessageType} {p : Packet} {active : ActiveInterface}
      (hreads : Reads t d ingress type p) (hrequest : type.isRequest = true)
      (hactive : t.activeAt? ingress.index = some active)
      (haddress : active.property.v4Address? = none) :
      Handled net t r d (r.drop ingress.name .noAddress)
  | hopLimit {ingress : Property} {type : MessageType} {p : Packet} {active : ActiveInterface}
      {address : V4Address} (hreads : Reads t d ingress type p) (hrequest : type.isRequest = true)
      (hactive : t.activeAt? ingress.index = some active)
      (haddress : active.property.v4Address? = some address) (hlimit : t.hopLimit ≤ p.hops) :
      Handled net t r d (r.drop ingress.name .hopLimit)
  | missingServerId {ingress : Property} {active : ActiveInterface} {address : V4Address}
      {type : MessageType} {p : Packet} (hadmits : Admits t d ingress active address type p)
      (hservers : servers? active.config type p = none) :
      Handled net t r d ((r.noteRequest ingress.name type p).drop ingress.name .missingServerId)
  | request {ingress : Property} {active : ActiveInterface} {address : V4Address}
      {type : MessageType} {p : Packet} {servers : List V4Address}
      (hadmits : Admits t d ingress active address type p)
      (hservers : servers? active.config type p = some servers) :
      Handled net t r d ((r.noteRequest ingress.name type p).sendToServers net ingress.name
        p.clientKey (forwarded address type p).encode servers)
  | unknownClient {ingress : Property} {type : MessageType} {p : Packet}
      (hreads : Reads t d ingress type p) (hreply : type.isRequest = false)
      (hpeer : r.peers.get? p.clientKey = none) :
      Handled net t r d (⟨.dropped .unknownClient, [], []⟩, r)
  | egressNotActive {ingress : Property} {type : MessageType} {p : Packet} {name : String}
      (hexpects : Expects t r d ingress type p name) (hegress : t.activeNamed? name = none) :
      Handled net t r d ((r.noteReply ingress.name type p).drop name .egressNotActive)
  | egressNoAddress {ingress : Property} {type : MessageType} {p : Packet} {name : String}
      {egress : ActiveInterface} (hexpects : Expects t r d ingress type p name)
      (hegress : t.activeNamed? name = some egress)
      (hsource : egress.property.v4Address? = none) :
      Handled net t r d ((r.noteReply ingress.name type p).drop name .egressNoAddress)
  | handleUnavailable {ingress : Property} {type : MessageType} {p : Packet} {name : String}
      {egress : ActiveInterface} {source : V4Address} {r' : Relay}
      (hexpects : Expects t r d ingress type p name)
      (hegress : t.activeNamed? name = some egress)
      (hsource : egress.property.v4Address? = some source)
      (hhandle : (r.noteReply ingress.name type p).handle net egress.property = (none, r')) :
      Handled net t r d (r'.drop name .handleUnavailable)
  | reply {ingress : Property} {type : MessageType} {p : Packet} {name : String}
      {egress : ActiveInterface} {source : V4Address} {handle : Handle} {r' : Relay}
      (hexpects : Expects t r d ingress type p name)
      (hegress : t.activeNamed? name = some egress)
      (hsource : egress.property.v4Address? = some source)
      (hhandle : (r.noteReply ingress.name type p).handle net egress.property =
        (some handle, r')) :
      Handled net t r d (r'.sendReply net name handle (replyFrame handle source type p) d.source p)

section
variable {net : Network} {t : Tracker} {r : Relay} {d : Datagram} {ingress : Property}
  {active : ActiveInterface} {address : V4Address} {type : MessageType} {p : Packet}

/-- What a datagram is read as is determined. -/
theorem Reads.unique {ingress' : Property} {type' : MessageType} {p' : Packet}
    (h : Reads t d ingress type p) (h' : Reads t d ingress' type' p') :
    ingress' = ingress ∧ type' = type ∧ p' = p := by
  obtain rfl := Option.some.inj (h'.ingress_eq.symm.trans h.ingress_eq)
  obtain rfl := Except.ok.inj (h'.parse_eq.symm.trans h.parse_eq)
  have hcode : type'.code = type.code := Option.some.inj (h'.type_eq.symm.trans h.type_eq)
  have htype := MessageType.ofCode?_code type'
  rw [hcode, MessageType.ofCode?_code type] at htype
  exact ⟨rfl, (Option.some.inj htype).symm, rfl⟩

/-- How a request is admitted is determined. -/
theorem Admits.unique {ingress' : Property} {active' : ActiveInterface} {address' : V4Address}
    {type' : MessageType} {p' : Packet} (h : Admits t d ingress active address type p)
    (h' : Admits t d ingress' active' address' type' p') :
    ingress' = ingress ∧ active' = active ∧ address' = address ∧ type' = type ∧ p' = p := by
  obtain ⟨rfl, rfl, rfl⟩ := h.toReads.unique h'.toReads
  obtain rfl := Option.some.inj (h'.active_eq.symm.trans h.active_eq)
  obtain rfl := Option.some.inj (h'.address_eq.symm.trans h.address_eq)
  exact ⟨rfl, rfl, rfl, rfl, rfl⟩

/-- A reply is not admitted as a request. -/
theorem Reads.not_admits {ingress' : Property} {active' : ActiveInterface} {address' : V4Address}
    {type' : MessageType} {p' : Packet} (h : Reads t d ingress type p)
    (hreply : type.isRequest = false) : ¬ Admits t d ingress' active' address' type' p' := by
  intro hadmits
  obtain ⟨rfl, rfl, rfl⟩ := h.unique hadmits.toReads
  exact absurd (hreply.symm.trans hadmits.isRequest) (by decide)

/-! ## All ends -/

/-- The ends of a request. -/
theorem handled_relayRequest (r : Relay) (hreads : Reads t d ingress type p)
    (hrequest : type.isRequest = true) :
    Handled net t r d (r.relayRequest net t ingress type p) := by
  unfold relayRequest
  dsimp only
  cases hactive : t.activeAt? ingress.index with
  | none => exact .notActive hreads hrequest hactive
  | some active =>
    dsimp only
    cases haddress : active.property.v4Address? with
    | none => exact .noAddress hreads hrequest hactive haddress
    | some address =>
      dsimp only
      split
      · next hlimit => exact .hopLimit hreads hrequest hactive haddress hlimit
      · next hlimit =>
        have hadmits : Admits t d ingress active address type p :=
          ⟨hreads, hrequest, hactive, haddress, UInt8.not_le.1 hlimit⟩
        cases hservers : servers? active.config type p with
        | none => exact .missingServerId hadmits hservers
        | some servers => exact .request hadmits hservers

/-- The ends of a reply. -/
theorem handled_relayReply (r : Relay) (hreads : Reads t d ingress type p)
    (hreply : type.isRequest = false) :
    Handled net t r d (r.relayReply net t ingress d.source type p) := by
  unfold relayReply
  cases hpeer : r.peers.get? p.clientKey with
  | none => exact .unknownClient hreads hreply hpeer
  | some name =>
    have hexpects : Expects t r d ingress type p name := ⟨hreads, hreply, hpeer⟩
    dsimp only
    cases hegress : t.activeNamed? name with
    | none => exact .egressNotActive hexpects hegress
    | some egress =>
      dsimp only
      cases hsource : egress.property.v4Address? with
      | none => exact .egressNoAddress hexpects hegress hsource
      | some source =>
        dsimp only
        split
        · next r' hhandle => exact .handleUnavailable hexpects hegress hsource hhandle
        · next handle r' hhandle => exact .reply hexpects hegress hsource hhandle

/-- Whatever a relay does with a datagram is one of the ends. -/
theorem handled_receive (net : Network) (t : Tracker) (r : Relay) (d : Datagram) :
    Handled net t r d (r.receive net t d) := by
  unfold receive
  split
  · next ingress p hingress hparse =>
    split
    · next hunknown =>
      refine .ignored fun ingress' type p' hreads => ?_
      obtain rfl := Except.ok.inj (hparse.symm.trans hreads.parse_eq)
      rw [hreads.type_eq] at hunknown
      cases (MessageType.ofCode?_code type).symm.trans hunknown
    · next type htype =>
      obtain ⟨code, hcode, htype⟩ := Option.bind_eq_some_iff.1 htype
      obtain rfl := MessageType.ofCode?_eq_some_iff.1 htype
      have hreads : Reads t d ingress type p := ⟨hingress, hparse, hcode⟩
      split
      · next hrequest => exact handled_relayRequest r hreads hrequest
      · next hreply => exact handled_relayReply r hreads (Bool.eq_false_iff.2 hreply)
  · next hunread =>
    exact .ignored fun ingress type p hreads => hunread ingress p hreads.ingress_eq hreads.parse_eq

/-- An admitted request is handled as a request. -/
theorem receive_of_admits (h : Admits t d ingress active address type p) (net : Network)
    (r : Relay) : r.receive net t d = r.relayRequest net t ingress type p := by
  have htype : (p.messageCode? >>= MessageType.ofCode?) = some type := by
    rw [h.type_eq]
    exact MessageType.ofCode?_code type
  simp only [receive, h.ingress_eq, h.parse_eq, htype, h.isRequest, if_true]

/-- An admitted request is noted and sent to its servers. -/
theorem relayRequest_of_admits (h : Admits t d ingress active address type p) (net : Network)
    (r : Relay) {servers : List V4Address}
    (hservers : servers? active.config type p = some servers) :
    r.relayRequest net t ingress type p =
      (r.noteRequest ingress.name type p).sendToServers net ingress.name p.clientKey
        (forwarded address type p).encode servers := by
  simp only [relayRequest, h.active_eq, h.address_eq, if_neg (UInt8.not_le.2 h.hops_lt), hservers]

/-- An admitted request that has to name its server and does not is noted and dropped. -/
theorem relayRequest_of_unnamed (h : Admits t d ingress active address type p) (net : Network)
    (r : Relay) (hservers : servers? active.config type p = none) :
    r.relayRequest net t ingress type p =
      (r.noteRequest ingress.name type p).drop ingress.name .missingServerId := by
  simp only [relayRequest, h.active_eq, h.address_eq, if_neg (UInt8.not_le.2 h.hops_lt), hservers]

/-! ## What is sent to servers -/

/-- What is sent to servers is a transmission to each, whatever the network takes. -/
theorem sent_sendToServers (r : Relay) (name client : String) (payload : Bytes)
    (servers : List V4Address) : (r.sendToServers net name client payload servers).1.sent =
      servers.mapIdx (attempt net payload) := by
  unfold sendToServers
  dsimp only
  split <;> rfl

/-- Every transmission to a server carries the octets that are to be sent. -/
theorem payload_of_mem_sendToServers {name client : String} {payload : Bytes}
    {servers : List V4Address} {x : Transmission}
    (h : x ∈ (r.sendToServers net name client payload servers).1.sent) : x.payload = payload := by
  rw [sent_sendToServers] at h
  obtain ⟨n, hn, rfl⟩ := List.mem_mapIdx.1 h
  rfl

/-- What is sent to servers is not delivered to anyone. -/
theorem outcome_sendToServers (client : String) (payload : Bytes) (servers : List V4Address)
    (ingress name : String) :
    (r.sendToServers net ingress client payload servers).1.outcome ≠ .delivered name := by
  unfold sendToServers
  dsimp only
  split <;> exact nofun

/-- Nothing is sent to a server on behalf of a reply. -/
theorem sent_sendReply (name : String) (handle : Handle) (frame : Bytes) (server : V4Address)
    (p : Packet) : (r.sendReply net name handle frame server p).1.sent = [] := by
  unfold sendReply
  split <;> rfl

/-- What is sent to servers is an admitted request, with the same octets to every one. -/
theorem of_mem_sent {x : Transmission} (hx : x ∈ (r.receive net t d).1.sent) :
    ∃ ingress active address type p, Admits t d ingress active address type p ∧
      ∀ y ∈ (r.receive net t d).1.sent, y.payload = (forwarded address type p).encode := by
  have h := handled_receive net t r d
  generalize r.receive net t d = result at h hx
  cases h with
  | ignored | notActive | noAddress | hopLimit | missingServerId | unknownClient
  | egressNotActive | egressNoAddress | handleUnavailable => cases hx
  | request hadmits => exact ⟨_, _, _, _, _, hadmits, fun y hy => payload_of_mem_sendToServers hy⟩
  | reply =>
    rw [sent_sendReply] at hx
    cases hx

/-! ## What is delivered -/

/-- Nothing is sent in a frame on behalf of a request. -/
theorem frames_sendToServers (name client : String) (payload : Bytes) (servers : List V4Address) :
    (r.sendToServers net name client payload servers).1.frames = [] := by
  unfold sendToServers
  dsimp only
  split <;> rfl

/-- A reply is sent in one frame. -/
theorem frames_sendReply (name : String) (handle : Handle) (frame : Bytes) (server : V4Address)
    (p : Packet) : (r.sendReply net name handle frame server p).1.frames =
      [⟨handle, frame, net.sends handle frame⟩] := by
  unfold sendReply
  split
  · next hsends => rw [hsends]
  · next hsends => rw [Bool.eq_false_iff.2 hsends]

/-- What is sent in a frame is an expected reply. -/
theorem of_mem_frames {f : FrameTransmission} (hf : f ∈ (r.receive net t d).1.frames) :
    ∃ ingress type p name source, Expects t r d ingress type p name ∧
      f.frame = replyFrame f.handle source type p := by
  have h := handled_receive net t r d
  generalize r.receive net t d = result at h hf
  cases h with
  | ignored | notActive | noAddress | hopLimit | missingServerId | unknownClient
  | egressNotActive | egressNoAddress | handleUnavailable => cases hf
  | request =>
    rw [frames_sendToServers] at hf
    cases hf
  | reply hexpects =>
    rw [frames_sendReply] at hf
    obtain rfl := List.mem_singleton.1 hf
    exact ⟨_, _, _, _, _, hexpects, rfl⟩

/-- A handle that a relay has afterwards under the index of an interface is the one that it used. If
there was one before, that one is used. -/
theorem handle_eq_some {egress : Property} {handle : Handle} {r' : Relay}
    (h : r.handle net egress = (some handle, r')) :
    r'.handles.get? egress.index = some handle ∧
      ∀ held, r.handles.get? egress.index = some held → held = handle := by
  unfold Relay.handle at h
  cases hheld : r.handles.get? egress.index with
  | some held =>
    rw [hheld] at h
    obtain ⟨hhandle, rfl⟩ := Prod.mk.inj h
    obtain rfl := Option.some.inj hhandle
    exact ⟨hheld, fun other hother => (Option.some.inj hother).symm⟩
  | none =>
    rw [hheld] at h
    dsimp only [openHandle] at h
    split at h
    · obtain ⟨hhandle, rfl⟩ := Prod.mk.inj h
      obtain rfl := Option.some.inj hhandle
      exact ⟨SortedTable.get?_insert_self _ _ _, nofun⟩
    · cases (Prod.mk.inj h).1

/-- A reply that is delivered is an expected one, and it makes one frame, through the handle of the
interface on which its client was seen. -/
theorem of_delivered {name : String} (h : (r.receive net t d).1.outcome = .delivered name) :
    ∃ ingress type p egress source handle, Expects t r d ingress type p name ∧
      t.activeNamed? name = some egress ∧ egress.property.v4Address? = some source ∧
      (r.receive net t d).2.handles.get? egress.property.index = some handle ∧
      (∀ held, r.handles.get? egress.property.index = some held → held = handle) ∧
      (r.receive net t d).1.frames = [⟨handle, replyFrame handle source type p, true⟩] ∧
      (r.receive net t d).1.sent = [] := by
  have hend := handled_receive net t r d
  generalize r.receive net t d = result at h hend
  cases hend with
  | ignored | notActive | noAddress | hopLimit | missingServerId | unknownClient
  | egressNotActive | egressNoAddress | handleUnavailable => cases h
  | request => exact absurd h (outcome_sendToServers _ _ _ _ _)
  | reply hexpects hegress hsource hhandle =>
    obtain ⟨hheld, hkept⟩ := handle_eq_some hhandle
    unfold sendReply at h ⊢
    split at h
    · next hsends =>
      obtain rfl := Outcome.delivered.inj h
      rw [if_pos hsends]
      exact ⟨_, _, _, _, _, _, hexpects, hegress, hsource, hheld, hkept, rfl, rfl⟩
    · cases h

end

end Relay

end DhcpRelay.V4
