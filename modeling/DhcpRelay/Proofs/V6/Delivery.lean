import DhcpRelay.Proofs.Address.Blocks
import DhcpRelay.Proofs.History
import DhcpRelay.Proofs.V6.MessageLayout
import DhcpRelay.Proofs.V6.ReturnPath

/-!
# Where a reply goes and what it holds

A reply is delivered on the interface on which the latest message of its peer arrived
(`Relay.LatestMessage`), as long as that interface is active, and it goes there under the index that
the interface has by then (`Relay.reply_reaches_peer`). What is sent is what stands in the reply as
the first message inside, whatever that is: it is unwrapped by one level and not read any further
than its first octet, which decides between the port of relays and that of clients.
-/

namespace DhcpRelay.V6.Relay

/-! ## The latest message of a peer -/

/-- A client's or another relay's message of the peer, which can be read, arrives on the active
interface called `name`. -/
def Input.Shows (peer : V6Address) (name : String) : Input → Prop
  | .datagram _ t d => d.source = peer ∧
      (∃ a, t.activeAt? d.ingress = some a ∧ a.property.name = name) ∧
      ((isClientMessage d.payload = true ∧ ∃ m, ClientMessage.parse d.payload = .ok m) ∨
        messageType? d.payload = some .relayForward ∧ ∃ m, RelayMessage.parse d.payload = .ok m)
  | _ => False

/-- The latest such message of the peer arrived on the interface called `name`. -/
def LatestMessage (peer : V6Address) (name : String) : List Input → Prop :=
  History.Latest (·.Shows peer name) fun i => ∃ other, i.Shows peer other

section
variable {t : Tracker} {r : Relay} {d : Datagram} {peer : V6Address} {name : String}

/-- A message can be relayed towards the servers exactly if it is of such a type and can be read. -/
theorem isRequest_iff (payload : Bytes) : isRequest payload = true ↔
    (isClientMessage payload = true ∧ ∃ m, ClientMessage.parse payload = .ok m) ∨
      messageType? payload = some .relayForward ∧ ∃ m, RelayMessage.parse payload = .ok m := by
  have hclient : clientHeaderSize ≤ payload.length ↔ ∃ m, ClientMessage.parse payload = .ok m := by
    obtain ⟨hshort, e, he⟩ | ⟨hlong, hread⟩ := ClientMessage.parse_cases payload
    · simp [he, hshort]
    · exact iff_of_true hlong hread
  have hrelay : relayHeaderSize ≤ payload.length ↔ ∃ m, RelayMessage.parse payload = .ok m := by
    obtain ⟨hshort, e, he⟩ | ⟨hlong, hread⟩ := RelayMessage.parse_cases payload
    · simp [he, hshort]
    · exact iff_of_true hlong hread
  simp [isRequest, hclient, hrelay]

/-- What an input shows of a peer is what such a message of it shows. -/
theorem Input.shows?_eq_some_iff (i : Input) : i.shows? peer = some name ↔ i.Shows peer name := by
  cases i with
  | datagram net t d =>
    simp only [Input.shows?, Input.Shows, sighting?, Option.ite_none_right_eq_some,
      Option.map_eq_some_iff, isRequest_iff]
    tauto
  | createInterface | deleteInterface => simp [Input.shows?, Input.Shows]

/-- A peer was last seen where its latest message arrived. -/
theorem lastSeen?_eq_some_iff (ins : List Input) :
    lastSeen? peer ins = some name ↔ LatestMessage peer name ins := by
  induction ins using List.reverseRecOn with
  | nil => exact iff_of_false nofun History.not_latest_nil
  | append_singleton ins i ih =>
    have hlast : lastSeen? peer (ins ++ [i]) = (i.shows? peer).or (lastSeen? peer ins) := by
      rw [lastSeen?, List.reverse_append, List.findSome?_append, List.reverse_singleton,
        List.findSome?_singleton, lastSeen?]
    have hnone : i.shows? peer = none ↔ ¬ ∃ other, i.Shows peer other := by
      simp only [Option.eq_none_iff_forall_ne_some, ne_eq, Input.shows?_eq_some_iff, not_exists]
    rw [LatestMessage, History.latest_append, hlast, Option.or_eq_some_iff, hnone,
      Input.shows?_eq_some_iff, ← LatestMessage, ih]

/-- After a run of a new relay the table holds for each peer the interface on which its latest
message arrived, and nothing for a peer without one. -/
theorem get?_peers_run_eq_some_iff (ins : List Input) :
    (({} : Relay).run ins).peers.get? peer = some name ↔ LatestMessage peer name ins := by
  rw [get?_peers_run, ← lastSeen?_eq_some_iff]
  exact Option.or_none ▸ Iff.rfl

/-! ## Destinations -/

/-- A message inside a reply goes to the peer, to the port of relays if its first octet is the type
of a relay message and otherwise to that of clients, and on the link of the interface if the peer is
in fe80::/10. -/
theorem replyDestination_spec (index : Int) (peer : V6Address) (inner : Bytes) :
    (replyDestination index peer inner).address = peer ∧
      (replyDestination index peer inner).port =
        (if inner.head? = some 12 ∨ inner.head? = some 13 then 547 else 546) ∧
      (peer.InBlock V6Address.linkLocalBase 10 →
        (replyDestination index peer inner).scope = scopeOf index) ∧
      (¬ peer.InBlock V6Address.linkLocalBase 10 →
        (replyDestination index peer inner).scope = 0) := by
  have htype : inner.head?.any MessageType.isRelayMessage = true ↔
      inner.head? = some 12 ∨ inner.head? = some 13 := by
    cases inner.head? with
    | none => simp
    | some octet => simp [MessageType.isRelayMessage, MessageType.code]
  rw [← V6Address.isLinkLocal_iff]
  refine ⟨rfl, ?_, fun h => if_pos h, fun h => if_neg h⟩
  simp only [replyDestination, htype]
  rfl

/-- After any run, a reply that is delivered on an interface can be read, and its peer's latest
message, a client's or another relay's that could be read and that arrived on an active interface,
arrived on that one, be it that it went on or that it had passed too many relays. The interface is
active. There is one transmission, of the data of the first option for a message inside, as they
stand in the reply, to the peer's address: to port 547 if their first octet is 12 or 13 and
otherwise to port 546, on the link that the interface's index names now if the peer is in fe80::/10
and otherwise on none. And no reply, and no message on an interface that is not active, changes
where any peer was last seen. -/
theorem reply_reaches_peer (ins : List Input) (net : Network) (t : Tracker) (d : Datagram) :
    let r := ({} : Relay).run ins
    (∀ name, (r.receive net t d).1.outcome = .delivered name →
      ∃ m before inner after egress x,
        messageType? d.payload = some .relayReply ∧
        RelayMessage.parse d.payload = .ok m ∧
        m.options = before ++ ⟨9, inner⟩ :: after ∧ (∀ o ∈ before, o.code ≠ 9) ∧
        inner <:+: d.payload ∧
        LatestMessage m.peerAddress name ins ∧
        t.activeNamed? name = some egress ∧
        (r.receive net t d).1.sent = [x] ∧ x.accepted = true ∧ x.payload = inner ∧
        x.destination.address = m.peerAddress ∧
        x.destination.port =
          (if inner.head? = some 12 ∨ inner.head? = some 13 then 547 else 546) ∧
        (m.peerAddress.InBlock V6Address.linkLocalBase 10 →
          x.destination.scope = scopeOf egress.property.index) ∧
        (¬ m.peerAddress.InBlock V6Address.linkLocalBase 10 → x.destination.scope = 0)) ∧
    (messageType? d.payload = some .relayReply ∨ t.activeAt? d.ingress = none →
      (r.receive net t d).2.peers = r.peers) := by
  intro r
  constructor
  · intro name hdelivered
    obtain ⟨m, inner, egress, hreply, hpeer, hegress, hsent⟩ := of_delivered hdelivered
    obtain ⟨before, after, hoptions, hbefore⟩ :=
      RelayMessage.relayMessage_eq_ok_iff.1 hreply.inner_eq
    have hinside := RelayMessage.infix_of_relayMessage hreply.parse_eq hreply.inner_eq
    have hlatest := (get?_peers_run_eq_some_iff ins).1 hpeer
    obtain ⟨haddress, hport, hlocal, hglobal⟩ :=
      replyDestination_spec egress.property.index m.peerAddress inner
    exact ⟨m, before, inner, after, egress, _, hreply.type_eq, hreply.parse_eq, hoptions, hbefore,
      hinside, hlatest, hegress, hsent, rfl, rfl, haddress, hport, hlocal, hglobal⟩
  · rintro (hreply | hinactive)
    · exact peers_receive_of_sighting? net r (sighting?_of_reply hreply)
    · exact peers_receive_of_sighting? net r (sighting?_of_not_active hinactive)

end

/-! ## An interface that moved -/

/-- The two links after the first interface has come back with another index. -/
def movedLink : Tracker :=
  (twoLinks.interfaceDeleted .v6 1 none).interfaceCreated .v6 (linkProperty 7 "eth0" 1)

/-- The reply to a message that came in before goes to the interface where it is now. -/
theorem reply_reaches_peer_on_movedLink :
    let receipt := ((({} : Relay).run [.datagram openNetwork twoLinks (solicitOn 1)]).receive
      openNetwork movedLink replyDatagram).1
    receipt.outcome = .delivered "eth0" ∧
      ∃ x, receipt.sent = [x] ∧ x.payload = [2, 0, 0, 1] ∧
        x.destination.address = sharedAddress ∧ x.destination.port = 546 ∧
        x.destination.scope = 7 := by
  have hdelivered : ((({} : Relay).run [.datagram openNetwork twoLinks (solicitOn 1)]).receive
      openNetwork movedLink replyDatagram).1.outcome = .delivered "eth0" := by
    decide +kernel
  obtain ⟨m, before, inner, after, egress, x, -, hparse, hoptions, hbefore, -, -, hegress, hsent, -,
    rfl, haddress, hport, hlocal, -⟩ :=
    (reply_reaches_peer [.datagram openNetwork twoLinks (solicitOn 1)] openNetwork movedLink
      replyDatagram).1 "eth0" hdelivered
  obtain rfl := Except.ok.inj (isReply_firstReply.parse_eq.symm.trans hparse)
  have hinner : x.payload = [2, 0, 0, 1] :=
    Except.ok.inj ((RelayMessage.relayMessage_eq_ok_iff.2 ⟨_, _, hoptions, hbefore⟩).symm.trans
      isReply_firstReply.inner_eq)
  have hindex : (movedLink.activeNamed? "eth0").map (·.property.index) = some 7 := by
    decide +kernel
  rw [hegress, Option.map_some, Option.some.injEq] at hindex
  have hscope := hlocal (V6Address.isLinkLocal_iff.1 (by decide))
  rw [hindex] at hscope
  rw [hinner] at hport
  exact ⟨hdelivered, x, hsent, hinner, haddress, hport, hscope⟩

end DhcpRelay.V6.Relay
