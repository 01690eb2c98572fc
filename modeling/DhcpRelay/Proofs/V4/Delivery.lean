import DhcpRelay.Proofs.V4.Forwarding
import DhcpRelay.Proofs.V4.Frame
import DhcpRelay.Proofs.V4.Peers

/-!
# Where a reply goes and what it holds

A reply is delivered on the interface of its client's latest request, in one frame through the
handle of that interface, as long as the interface is active and has an address
(`Relay.reply_reaches_client`). The frame goes to the client itself if that is possible
(`Relay.Unicast`), and to all stations otherwise. It holds the packet that was received, as a reply,
with its options in order.
-/

namespace DhcpRelay.V4

open Interface (Property)

section
variable {p : Packet}

/-! ## Destinations -/

/-- The hardware address of a client is as long as the packet says, up to the size of its field. -/
theorem Packet.length_hardwareOctets (p : Packet) :
    p.hardwareOctets.length = min p.hlen.toNat 16 := by
  rw [hardwareOctets, List.length_take, UInt8.toNat_min, Octets.length_toList]
  exact (Nat.min_assoc _ _ _).trans (congrArg _ (Nat.min_self 16))

/-- A hardware address that fits its field is what the packet says of it. -/
theorem Packet.hardwareOctets_eq (h : p.hlen ≤ maxHardwareLen) :
    p.hardwareOctets = p.chaddr.toList.take p.hlen.toNat := by
  rw [hardwareOctets, UInt8.toNat_min, Nat.min_eq_left (UInt8.le_iff_toNat_le.1 h)]

/-- A client whose hardware address has six octets has an Ethernet address. -/
theorem Packet.etherAddress?_of_hlen (h : p.hlen = 6) :
    ∃ mac, p.etherAddress? = some mac ∧ mac.octets.toList = p.chaddr.toList.take 6 := by
  have hlength : p.hardwareOctets.length = 6 := by
    rw [length_hardwareOctets, h]
    rfl
  refine ⟨⟨⟨p.hardwareOctets, hlength⟩⟩, Option.map_eq_some_iff.2
    ⟨⟨p.hardwareOctets, hlength⟩, Octets.ofList?_eq_some_iff.2 rfl, rfl⟩, ?_⟩
  show p.hardwareOctets = _
  rw [hardwareOctets_eq (by rw [h]; decide), h]
  rfl

/-- A client whose hardware address has another length has no Ethernet address. -/
theorem Packet.etherAddress?_eq_none (h : p.hlen ≠ 6) : p.etherAddress? = none := by
  have hlength : p.hardwareOctets.length ≠ 6 := by
    intro hlength
    have hlen : p.hlen.toNat ≠ 6 := fun he => h (UInt8.toNat_inj.1 he)
    rw [length_hardwareOctets] at hlength
    omega
  rw [etherAddress?, Octets.ofList?, dif_neg hlength]
  rfl

namespace Relay

/-- A reply can go to its client itself: the client has an Ethernet address and is given an IPv4
address, it does not want a broadcast, and it is not being refused. -/
structure Unicast (type : MessageType) (p : Packet) : Prop where
  hlen_eq : p.hlen = 6
  ne_nak : type ≠ .nak
  isBroadcast_eq : p.isBroadcast = false
  yiaddr_ne : p.yiaddr ≠ .unspecified

variable {type : MessageType}

/-- A reply that can go to its client itself goes there. -/
theorem replyDestination_of_unicast (h : Unicast type p) :
    (replyDestination type p).1 = p.yiaddr ∧
      (replyDestination type p).2.octets.toList = p.chaddr.toList.take 6 := by
  obtain ⟨mac, hmac, hoctets⟩ := Packet.etherAddress?_of_hlen h.hlen_eq
  have hdirect : type ≠ .nak ∧ (!p.isBroadcast) = true ∧ (!p.yiaddr.isUnspecified) = true :=
    ⟨h.ne_nak, by rw [h.isBroadcast_eq]; rfl, by simpa [V4Address.isUnspecified] using h.yiaddr_ne⟩
  rw [replyDestination, hmac]
  dsimp only
  rw [if_pos hdirect]
  exact ⟨rfl, hoctets⟩

/-- Any other reply goes to all stations. -/
theorem replyDestination_of_not_unicast (h : ¬ Unicast type p) :
    replyDestination type p = (.broadcast, .broadcast) := by
  unfold replyDestination
  split
  · next mac hmac =>
    refine if_neg fun ⟨hnak, hbroadcast, hyiaddr⟩ => h ⟨?_, hnak, ?_, ?_⟩
    · by_contra hlen
      cases hmac.symm.trans (Packet.etherAddress?_eq_none hlen)
    · simpa using hbroadcast
    · simpa [V4Address.isUnspecified] using hyiaddr
  · rfl

end Relay

end

namespace Relay

section

/-- After any run a reply that is delivered goes to the interface on which the latest admitted
request of its client arrived. That interface is active and has an address. There is one frame,
through the handle that the relay has for the interface, and if it had one before, through that one.
The frame comes from the handle's hardware address, the interface's address and the server port and
goes to the client port, of the client itself if that is possible and of all stations otherwise. It
holds the packet that was received, as a reply, with its options in order. And no reply changes
where a client was last seen. -/
theorem reply_reaches_client (ins : List Input) (net : Network) (t : Tracker) (d : Datagram) :
    let r := ({} : Relay).run ins
    (∀ name, (r.receive net t d).1.outcome = .delivered name →
      ∃ ingress type p egress source handle dstMac dstIp frame,
        Reads t d ingress type p ∧ (type = .offer ∨ type = .ack ∨ type = .nak) ∧
        LatestRequest p.clientKey name ins ∧
        t.activeNamed? name = some egress ∧ egress.property.v4Address? = some source ∧
        (r.receive net t d).2.handles.get? egress.property.index = some handle ∧
        (∀ held, r.handles.get? egress.property.index = some held → held = handle) ∧
        (r.receive net t d).1.frames = [⟨handle, frame, true⟩] ∧
        (r.receive net t d).1.sent = [] ∧
        FrameAddresses.Carries ⟨handle.mac, dstMac, source, dstIp, 67, 68⟩
          (p.relayed 2 (relayOptions type.code p.options)).encode frame ∧
        (Unicast type p → dstMac.octets.toList = p.chaddr.toList.take 6 ∧ dstIp = p.yiaddr) ∧
        (¬ Unicast type p → dstMac = .broadcast ∧ dstIp = .broadcast) ∧
        Packet.parse (frame.drop 42) =
          .ok { p with op := 2, options := relayOptions type.code p.options }) ∧
    ∀ ingress type p, Reads t d ingress type p → type.isRequest = false →
      (r.receive net t d).2.peers = r.peers := by
  intro r
  refine ⟨fun name hdelivered => ?_, fun ingress type p hreads hreply =>
    peers_receive_of_reply hreads hreply⟩
  obtain ⟨ingress, type, p, egress, source, handle, hexpects, hegress, hsource, hheld, hkept,
    hframes, hsent⟩ := of_delivered hdelivered
  have htype : type = .offer ∨ type = .ack ∨ type = .nak := by
    have hreply := hexpects.isReply
    cases type <;> simp_all [MessageType.isRequest]
  have hcarries : FrameAddresses.Carries
      ⟨handle.mac, (replyDestination type p).2, source, (replyDestination type p).1, 67, 68⟩
      (p.relayed 2 (relayOptions type.code p.options)).encode
      (replyFrame handle source type p) :=
    FrameAddresses.carries_frame _ _
  have hwell := Packet.wellFormed_of_parse hexpects.parse_eq
  refine ⟨ingress, type, p, egress, source, handle, _, _, _, hexpects.toReads, htype,
    (get?_peers_run_eq_some_iff ins).1 hexpects.peer_eq, hegress, hsource, hheld, hkept, hframes,
    hsent, hcarries, fun h => ?_, fun h => ?_, ?_⟩
  · exact (replyDestination_of_unicast h).symm
  · rw [replyDestination_of_not_unicast h]
    exact ⟨rfl, rfl⟩
  · rw [hcarries.payload]
    exact Packet.parse_encode (hwell.relayed 2 type.code)

end

/-! ## An offer on its way to a client -/

/-- An address is offered to the client. -/
def offerPacket : Packet := { clientPacket .offer with op := 2, yiaddr := .of 192 168 1 50 }

/-- The offer arrives on the interface. -/
def offerDatagram : Datagram := ⟨2, .of 10 0 0 2, offerPacket.encode⟩

/-- The offer can be read. -/
theorem reads_offerDatagram : Reads oneLink offerDatagram linkProperty .offer offerPacket where
  ingress_eq := by
    show oneLink.props.get? 2 = _
    decide +kernel
  parse_eq := Packet.parse_encode (by decide)
  type_eq := rfl

/-- What the relay takes in before the offer: the client asks for an address. -/
def beforeOffer : List Input := [.datagram openNetwork oneLink (clientDatagram .discover)]

/-- The offer goes to the client that asked for it. -/
theorem offer_reaches_client :
    let receipt := ((({} : Relay).run beforeOffer).receive openNetwork oneLink offerDatagram).1
    receipt.outcome = .delivered "eth0" ∧
      ∃ handle frame, receipt.frames = [⟨handle, frame, true⟩] ∧
        frame.field 0 6 = [2, 0, 0, 0, 0, 9] ∧ frame.field 30 4 = [192, 168, 1, 50] ∧
        Packet.parse (frame.drop 42) = .ok { offerPacket with
          options := [.messageType 2, ⟨61, [1, 2]⟩, ⟨12, [97]⟩] } := by
  have hdelivered : ((({} : Relay).run beforeOffer).receive openNetwork oneLink
      offerDatagram).1.outcome = .delivered "eth0" := by
    decide +kernel
  obtain ⟨ingress, type, p, egress, source, handle, dstMac, dstIp, frame, hreads, -, -, -, -, -, -,
    hframes, -, hcarries, hdirect, -, hparse⟩ :=
    (reply_reaches_client beforeOffer openNetwork oneLink offerDatagram).1 "eth0" hdelivered
  obtain ⟨rfl, rfl, rfl⟩ := reads_offerDatagram.unique hreads
  obtain ⟨hmac, rfl⟩ := hdirect ⟨rfl, by decide, by decide, by decide⟩
  have hoptions : relayOptions MessageType.offer.code offerPacket.options =
      [.messageType 2, ⟨61, [1, 2]⟩, ⟨12, [97]⟩] := by
    decide
  rw [hoptions] at hparse
  exact ⟨hdelivered, handle, frame, hframes, hcarries.dstMac.trans hmac, hcarries.dstIp, hparse⟩

end Relay

end DhcpRelay.V4
