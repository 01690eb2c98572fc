import DhcpRelay.Proofs.V4.Forwarding
import DhcpRelay.Proofs.V4.Frame

/-!
# How long a relayed packet is

However long a packet is, at most one option of each code goes on of it, and so what goes on fits an
IPv4 packet (`Packet.length_encode_le_of_options`). Lengths are written in one or two octets, those
of options and those in the headers of frames; all of them are then the true ones.
-/

namespace DhcpRelay.V4

section
variable {data : Bytes} {p q : Packet} {type : UInt8} {options : List DhcpOption}

/-- A written packet has at least the least size of a packet. -/
theorem Packet.length_encode_ge (p : Packet) : 272 ≤ p.encode.length := by
  rw [length_encode]
  exact Nat.le_max_left _ _

/-- A packet with the options of a relayed message is no longer than its header, its cookie, the
message type, one option of every other code with the longest data, and the end octet. -/
theorem Packet.length_encode_le_of_options (hoptions : q.options = relayOptions type options)
    (h : ∀ o ∈ options, o.WellFormed) : q.encode.length ≤ 65265 := by
  have hle := length_encodeAll_relayOptions_le type h
  have hmin : minPacketSize = 272 := rfl
  rw [length_encode, hoptions]
  omega

/-- A frame around such a packet has the true lengths. -/
theorem FrameAddresses.lengthsTrue_of_options (a : FrameAddresses)
    (hoptions : q.options = relayOptions type options) (h : ∀ o ∈ options, o.WellFormed) :
    LengthsTrue (a.frame q.encode) :=
  (a.carries_frame q.encode).lengthsTrue
    ((Packet.length_encode_le_of_options hoptions h).trans (by decide))

/-- What goes on of a packet has at least 272 and at most 65265 octets, however long the packet is.
It is read as it was made, and the length octet of each of its options is the length of the option's
data. It fits the payload of a UDP datagram over IPv4, also as a relay sends it to servers, and in
every frame around it, also in those that a relay sends to clients, the lengths in the headers are
the true ones. -/
theorem relayed_lengths_fit (hparse : Packet.parse data = .ok p) (op type : UInt8) :
    let relayed := p.relayed op (relayOptions type p.options)
    (272 ≤ relayed.encode.length ∧ relayed.encode.length ≤ 65265) ∧
      Packet.parse relayed.encode = .ok relayed ∧
      (∀ o ∈ relayed.options, ∃ length : UInt8, o.encode = o.code :: length :: o.data ∧
        length.toNat = o.data.length) ∧
      (∀ a : FrameAddresses, FrameAddresses.LengthsTrue (a.frame relayed.encode)) ∧
      ∀ (net : Network) (t : Tracker) (r : Relay) (d : Datagram), d.payload = data →
        (∀ x ∈ (r.receive net t d).1.sent, x.payload.length ≤ 65507) ∧
        ∀ f ∈ (r.receive net t d).1.frames, FrameAddresses.LengthsTrue f.frame := by
  have hwell := Packet.wellFormed_of_parse hparse
  refine ⟨⟨Packet.length_encode_ge _, Packet.length_encode_le_of_options rfl hwell.options⟩,
    Packet.parse_encode (hwell.relayed op type), fun o ho => ?_,
    fun a => a.lengthsTrue_of_options rfl hwell.options,
    fun net t r d hd => ⟨fun x hx => ?_, fun f hf => ?_⟩⟩
  · exact ⟨_, rfl, (wellFormed_relayOptions hwell.options o ho).toNat_length⟩
  · obtain ⟨ingress, active, address, type, p', hadmits, hall⟩ := Relay.of_mem_sent hx
    obtain rfl := Except.ok.inj ((hd ▸ hparse).symm.trans hadmits.parse_eq)
    have hle : (Relay.forwarded address type p).encode.length ≤ 65265 :=
      Packet.length_encode_le_of_options rfl hwell.options
    rw [hall x hx]
    exact hle.trans (by decide)
  · obtain ⟨ingress, type, p', name, source, hexpects, hframe⟩ := Relay.of_mem_frames hf
    obtain rfl := Except.ok.inj ((hd ▸ hparse).symm.trans hexpects.parse_eq)
    rw [hframe]
    exact FrameAddresses.lengthsTrue_of_options _ rfl hwell.options

end

/-! ## A reply that is too long -/

/-- An option with the longest data there are. -/
def longestOption : DhcpOption := ⟨61, List.replicate 255 0⟩

/-- It can be written. -/
theorem longestOption_wellFormed : longestOption.WellFormed :=
  ⟨by decide, by decide, List.length_replicate.le⟩

/-- A reply in which the option stands `n` times. -/
def longReply (n : Nat) : Packet :=
  { Relay.clientPacket .ack with
    options := .messageType MessageType.ack.code :: List.replicate n longestOption }

/-- It can be written. -/
theorem longReply_wellFormed (n : Nat) : (longReply n).WellFormed := by
  refine ⟨(by decide : (Relay.clientPacket .ack).hlen ≤ _), fun o ho => ?_⟩
  obtain rfl | ho := List.mem_cons.1 ho
  · decide
  · obtain rfl := List.eq_of_mem_replicate ho
    exact longestOption_wellFormed

/-- It is as long as its options together, at least. -/
theorem length_encode_longReply_ge (n : Nat) : n * 257 ≤ (longReply n).encode.length := by
  have hoption : longestOption.encode.length = 257 := by
    rw [DhcpOption.encode, longestOption, List.length_cons, List.length_cons, List.length_replicate]
  rw [Packet.length_encode, longReply, DhcpOption.encodeAll, List.flatMap_cons,
    List.length_append, List.length_append, List.length_flatMap, List.map_replicate,
    List.sum_replicate_nat, hoption]
  omega

/-- A reply that does not fit an IPv4 packet fits when it goes on. -/
theorem longReply_fits : Packet.parse (longReply 300).encode = .ok (longReply 300) ∧
    65507 < (longReply 300).encode.length ∧
    ((longReply 300).relayed 2 (relayOptions 5 (longReply 300).options)).encode.length ≤ 65265 ∧
    FrameAddresses.LengthsTrue (FrameAddresses.frame
      ⟨.broadcast, .broadcast, Relay.linkAddress, .broadcast, serverPort, clientPort⟩
      ((longReply 300).relayed 2 (relayOptions 5 (longReply 300).options)).encode) := by
  have hparse := Packet.parse_encode (longReply_wellFormed 300)
  have hlong := length_encode_longReply_ge 300
  obtain ⟨⟨-, hle⟩, -, -, hframes, -⟩ := relayed_lengths_fit hparse 2 5
  exact ⟨hparse, by omega, hle, hframes _⟩

end DhcpRelay.V4
