import DhcpRelay.Proofs.V6.Peers

/-!
# The way back

The table of peers knows a peer by its address alone, and a link-local address is unique on its link
only. So a reply to a client's message goes back to the link of that message unless the same address
has been seen on another link since then (`Relay.delivered_on_last_link`); if it has, the reply goes
there, although its link address tells the links apart.
-/

namespace DhcpRelay.V6.Relay

section
variable {r : Relay} {net net' : Network} {t t' : Tracker} {d d' : Datagram}

/-- A reply to a client's message, whose peer is that of the message that went on, is delivered on
the interface on which the client's address was seen last since that message, and otherwise on that
of the message itself. So it is delivered where the message came from exactly if the last message
that showed the address since, if there is one, showed it there. The one transmission goes to the
client's address, for a link-local one on the link of the interface on which it is delivered. -/
theorem delivered_on_last_link {A B : String} {x : Transmission} {forwarded reply : RelayMessage}
    (hclient : isClientMessage d.payload) (hingress : ingressName? t d.ingress = some A)
    (hsent : x ∈ (r.receive net t d).1.sent)
    (hforwarded : RelayMessage.parse x.payload = .ok forwarded)
    (after : List Input) (hreply : RelayMessage.parse d'.payload = .ok reply)
    (hpeer : reply.peerAddress = forwarded.peerAddress)
    (hdelivered : (((r.receive net t d).2.run after).receive net' t' d').1.outcome =
      .delivered B) :
    B = (lastSeen? d.source after).getD A ∧
    (B = A ↔ ∀ C, lastSeen? d.source after = some C → C = A) ∧
    ∃ egress y, t'.activeNamed? B = some egress ∧
      (((r.receive net t d).2.run after).receive net' t' d').1.sent = [y] ∧
      y.destination.address = d.source ∧
      y.destination.scope = if d.source.isLinkLocal then scopeOf egress.property.index else 0 := by
  obtain ⟨a, hactive, hseen, hpayload⟩ := sent_of_client hclient hsent
  obtain rfl := Option.some.inj (hingress.symm.trans (ingressName?_of_activeAt? hactive))
  -- The reply names the client: the header of what went on is read as it was written.
  have hsource : reply.peerAddress = d.source := by
    rw [hpayload, RelayMessage.parse_encode_eq] at hforwarded
    rw [hpeer, ← Except.ok.inj hforwarded]
    rfl
  obtain ⟨m, inner, egress, hm, hfound, hegress, hout⟩ := of_delivered hdelivered
  obtain rfl := Except.ok.inj (hreply.symm.trans hm.parse_eq)
  rw [hsource] at hfound hout
  have hlast : B = (lastSeen? d.source after).getD a.property.name :=
    Option.some.inj (hfound.symm.trans (get?_peers_receive_run hseen after))
  refine ⟨hlast, ?_, egress, _, hegress, hout, rfl, rfl⟩
  rw [hlast]
  cases lastSeen? d.source after <;> simp

end

/-! ## Two links with the same address -/

/-- The address fe80::c, which every link may have. -/
def sharedAddress : V6Address := ⟨⟨[0xFE, 0x80, 0, 0, 0, 0, 0, 0, 0, 0, 0, 0, 0, 0, 0, 0x0C], rfl⟩⟩

/-- The address 2001:db8:0:n::1. -/
def globalAddress (n : UInt8) : V6Address :=
  ⟨⟨[0x20, 0x01, 0x0D, 0xB8, 0, 0, 0, n, 0, 0, 0, 0, 0, 0, 0, 1], rfl⟩⟩

/-- An interface that is up, with an address of its own. -/
def linkProperty (index : Int) (name : String) (n : UInt8) : Interface.Property :=
  { index, name, address := some (.v6 (globalAddress n)), prefixLen := 64, up := true }

/-- A tracker with two active interfaces that send to one server. -/
def twoLinks : Tracker :=
  (((({} : Tracker).setGlobal (.enabled 32)).setInterface
    { name := "eth0", enable := true, servers := ["2001:db8::1"] }).setInterface
    { name := "eth1", enable := true, servers := ["2001:db8::1"] }).interfaceCreated .v6
    (linkProperty 1 "eth0" 1) |>.interfaceCreated .v6 (linkProperty 2 "eth1" 2)

/-- A network that takes every transmission. -/
def openNetwork : Network := ⟨fun _ _ => true⟩

/-- A client of the shared address asks for servers on the link of an index. -/
def solicitOn (ingress : Int) : Datagram := ⟨ingress, sharedAddress, [1, 0, 0, 1]⟩

/-- What goes on of the message on the first link. -/
def firstForward : RelayMessage := .forward 1 (globalAddress 1) sharedAddress [1, 0, 0, 1]

/-- The server's answer to it. -/
def firstReply : RelayMessage := firstForward.answer [2, 0, 0, 1]

/-- The answer arrives on the second link. -/
def replyDatagram : Datagram := ⟨2, globalAddress 0, firstReply.encode⟩

/-- What the relay sends of the message on the first link. -/
theorem sent_solicitOn : (({} : Relay).receive openNetwork twoLinks (solicitOn 1)).1.sent =
    [⟨⟨globalAddress 0, serverPort, 0⟩, firstForward.encode, true⟩] := by
  decide +kernel

/-- The answer can be read. -/
theorem isReply_firstReply : IsReply firstReply.encode firstReply [2, 0, 0, 1] :=
  ⟨by decide, RelayMessage.parse_encode_answer _ (by decide), rfl, by decide⟩

/-- If meanwhile a client of the same address was seen on the second link, the answer is delivered
there. -/
theorem delivered_replyDatagram :
    (((({} : Relay).receive openNetwork twoLinks (solicitOn 1)).2.run
      [.datagram openNetwork twoLinks (solicitOn 2)]).receive openNetwork twoLinks
        replyDatagram).1.outcome = .delivered "eth1" := by
  have hingress : ingressName? twoLinks replyDatagram.ingress = some "eth1" := by decide +kernel
  have hegress : twoLinks.activeNamed? "eth1" =
      some ⟨linkProperty 2 "eth1" 2,
        { name := "eth1", enable := true, servers := ["2001:db8::1"] }⟩ := by
    decide +kernel
  have hlast : lastSeen? sharedAddress [.datagram openNetwork twoLinks (solicitOn 2)] =
      some "eth1" := by
    decide +kernel
  rw [receive_of_reply isReply_firstReply hingress (by rw [get?_peers_run]; exact hlast ▸ rfl)
    hegress, outcome_sendReply]
  rfl

/-- Of two clients with the same address on two links the second one gets the answer to the first
one, on its own link. -/
theorem reply_follows_shared_address :
    let r := (({} : Relay).receive openNetwork twoLinks (solicitOn 1)).2.run
      [.datagram openNetwork twoLinks (solicitOn 2)]
    isClientMessage (solicitOn 1).payload ∧
      ingressName? twoLinks (solicitOn 1).ingress = some "eth0" ∧
      RelayMessage.parse replyDatagram.payload = .ok firstReply ∧
      firstReply.peerAddress = firstForward.peerAddress ∧
      (r.receive openNetwork twoLinks replyDatagram).1.outcome = .delivered "eth1" ∧
      ∃ y, (r.receive openNetwork twoLinks replyDatagram).1.sent = [y] ∧
        y.destination.address = sharedAddress ∧ y.destination.scope = 2 := by
  have hclient : isClientMessage (solicitOn 1).payload := by decide
  have hingress : ingressName? twoLinks (solicitOn 1).ingress = some "eth0" := by decide +kernel
  have hforwarded : RelayMessage.parse firstForward.encode = .ok firstForward :=
    RelayMessage.parse_encode (by decide)
  have hpeer : firstReply.peerAddress = firstForward.peerAddress := rfl
  obtain ⟨-, -, egress, y, hegress, hout, haddress, hscope⟩ := delivered_on_last_link hclient
    hingress (sent_solicitOn ▸ List.mem_singleton_self _) hforwarded
    [.datagram openNetwork twoLinks (solicitOn 2)] isReply_firstReply.parse_eq hpeer
    delivered_replyDatagram
  have hindex : (twoLinks.activeNamed? "eth1").map (·.property.index) = some 2 := by decide +kernel
  rw [hegress, Option.map_some, Option.some.injEq] at hindex
  refine ⟨hclient, hingress, isReply_firstReply.parse_eq, hpeer, delivered_replyDatagram, y, hout,
    haddress, ?_⟩
  rw [hscope, hindex]
  decide

/-- Replies do not always go back to the link they belong to, although the links have addresses of
their own. -/
theorem reply_delivered_on_other_link :
    ¬ ∀ (net : Network) (t : Tracker) (before after : List Datagram) (d d' : Datagram)
        (x : Transmission) (forwarded reply : RelayMessage) (A B : String),
      (t.activeIndices.map fun i => (t.activeAt? i).bind (·.property.v6Address?)).Nodup →
      (∀ c ∈ before ++ d :: after,
        isClientMessage c.payload = true ∧ (t.activeAt? c.ingress).isSome = true) →
      let r := ({} : Relay).run (before.map (.datagram net t))
      ingressName? t d.ingress = some A → x ∈ (r.receive net t d).1.sent →
      RelayMessage.parse x.payload = .ok forwarded →
      RelayMessage.parse d'.payload = .ok reply → reply.type = MessageType.relayReply.code →
      reply.linkAddress = forwarded.linkAddress → reply.peerAddress = forwarded.peerAddress →
      (((r.receive net t d).2.run (after.map (.datagram net t))).receive net t d').1.outcome =
        .delivered B →
      B = A := by
  intro h
  have hsame := h openNetwork twoLinks [] [solicitOn 2] (solicitOn 1) replyDatagram _ firstForward
    firstReply "eth0" "eth1" (by decide +kernel) (by decide +kernel) (by decide +kernel)
    (sent_solicitOn ▸ List.mem_singleton_self _) (RelayMessage.parse_encode (by decide))
    isReply_firstReply.parse_eq rfl rfl rfl delivered_replyDatagram
  exact absurd hsame (by decide)

end DhcpRelay.V6.Relay
