import DhcpRelay.Proofs.V4.Forwarding
import DhcpRelay.Proofs.V6.Chain

/-!
# No message is forwarded for ever

Relays may send to each other in a circle. But each relay that sends a message on counts itself in
it, the next one reads the count as it was written, and no relay sends a message on that has passed
as many relays as its limit says (`Forwards.relaysPassed`). In DHCPv6 this holds as what a relay
sends on is never taken for a client's message, whose count would begin anew. No limit that is
enforced is larger than 32, so no message is sent on more often than that
(`Forwards.length_le_of_isChain`).
-/

namespace DhcpRelay

/-- A relay of the family with this tracker receives the octets `p` and sends the octets `q` towards
the servers. What a DHCPv6 relay sends when it receives a reply goes the other way. -/
inductive Forwards : Family → Tracker → Bytes → Bytes → Prop where
  | v4 {net : V4.Network} {t : Tracker} {r : V4.Relay} {d : V4.Datagram} {x : V4.Transmission}
      (hx : x ∈ (r.receive net t d).1.sent) : Forwards .v4 t d.payload x.payload
  | v6 {net : V6.Network} {t : Tracker} {r : V6.Relay} {d : V6.Datagram} {x : V6.Transmission}
      (hx : x ∈ (r.receive net t d).1.sent)
      (hrequest : V6.messageType? d.payload ≠ some .relayReply) :
      Forwards .v6 t d.payload x.payload

/-- How many relays a message says that it has passed. -/
def relaysPassed? : Family → Bytes → Option Nat
  | .v4, p => (V4.Packet.parse p).toOption.map (·.hops.toNat)
  | .v6, p =>
    if V6.isClientMessage p then some 0
    else (V6.RelayMessage.parse p).toOption.map (·.hopCount.toNat)

namespace Forwards

variable {family : Family} {t : Tracker} {p q first : Bytes} {sent : List Bytes} {k : Nat}

/-! ## One relay -/

/-- What a DHCPv4 relay sends on has one hop more than what it received, and no more than the
limit. -/
theorem hops_v4 (h : Forwards .v4 t p q) : ∃ received emitted : V4.Packet,
    V4.Packet.parse p = .ok received ∧ V4.Packet.parse q = .ok emitted ∧
      emitted.hops.toNat = received.hops.toNat + 1 ∧ emitted.hops.toNat ≤ t.enforcedLimit := by
  cases h with
  | v4 hx =>
    obtain ⟨ingress, active, address, type, received, hadmits, hall⟩ := V4.Relay.of_mem_sent hx
    have hwell := V4.Packet.wellFormed_of_parse hadmits.parse_eq
    have hhops : (V4.Relay.forwarded address type received).hops.toNat =
        received.hops.toNat + 1 := by
      rw [V4.Relay.forwarded_eq address type hadmits.hops_lt]
      exact Tracker.toNat_add_one hadmits.hops_lt
    refine ⟨received, V4.Relay.forwarded address type received, hadmits.parse_eq, ?_, hhops, ?_⟩
    · rw [hall _ hx]
      exact V4.Packet.parse_encode (V4.Relay.wellFormed_forwarded address type hwell)
    · rw [hhops]
      exact Tracker.add_one_le_enforcedLimit hadmits.hops_lt

/-- A relay message is not taken for a client's message. -/
theorem isClientMessage_of_relayForward (h : V6.messageType? p = some .relayForward) :
    V6.isClientMessage p = false := by
  rw [V6.isClientMessage, h]
  rfl

/-- What a DHCPv6 relay sends on is a relay message. It has hop count 1 if a client's message was
received, and otherwise one hop more than what was received and no more than the limit. -/
theorem hops_v6 (h : Forwards .v6 t p q) : ∃ emitted : V6.RelayMessage,
    V6.RelayMessage.parse q = .ok emitted ∧ emitted.type = V6.MessageType.relayForward.code ∧
      (V6.isClientMessage p = true ∧ emitted.hopCount = 1 ∨
        V6.isClientMessage p = false ∧ ∃ received, V6.RelayMessage.parse p = .ok received ∧
          emitted.hopCount.toNat = received.hopCount.toNat + 1 ∧
          emitted.hopCount.toNat ≤ t.enforcedLimit) := by
  cases h with
  | v6 hx hrequest =>
    obtain ⟨hclient, a, -, -, hpayload⟩ | ⟨hforward, a, received, -, -, hparse, hlimit, hpayload⟩ |
      hreply := V6.Relay.sent_cases hx
    · rw [hpayload, V6.RelayMessage.parse_encode_eq]
      exact ⟨_, rfl, rfl, .inl ⟨hclient, rfl⟩⟩
    · rw [hpayload, V6.RelayMessage.parse_encode_eq]
      have hhops := Tracker.toNat_add_one hlimit
      have hle := hhops.trans_le (Tracker.add_one_le_enforcedLimit hlimit)
      exact ⟨_, rfl, rfl, .inr ⟨isClientMessage_of_relayForward hforward, received, hparse, hhops,
        hle⟩⟩
    · exact absurd hreply hrequest

/-- A message that is sent on says that it has passed one relay more than the one that was received,
and no more than 32. -/
theorem relaysPassed (h : Forwards family t p q) : ∃ k, relaysPassed? family p = some k ∧
    relaysPassed? family q = some (k + 1) ∧ k + 1 ≤ 32 := by
  have hlimit : t.enforcedLimit ≤ 32 := Nat.min_le_right _ _
  cases family with
  | v4 =>
    obtain ⟨received, emitted, hp, hq, hhops, hle⟩ := h.hops_v4
    refine ⟨received.hops.toNat, ?_, ?_, hhops ▸ hle.trans hlimit⟩
    · rw [relaysPassed?, hp]
      rfl
    · rw [relaysPassed?, hq]
      exact congrArg some hhops
  | v6 =>
    obtain ⟨emitted, hq, htype, hcases⟩ := h.hops_v6
    -- The message that is sent on is not taken for a client's.
    have hpassed : relaysPassed? .v6 q = some emitted.hopCount.toNat := by
      rw [relaysPassed?, isClientMessage_of_relayForward (V6.messageType?_of_parse hq htype), hq]
      rfl
    obtain ⟨hclient, hone⟩ | ⟨hclient, received, hp, hhops, hle⟩ := hcases
    · refine ⟨0, ?_, ?_, by decide⟩
      · rw [relaysPassed?, hclient]
        rfl
      · rw [hpassed, hone]
        rfl
    · refine ⟨received.hopCount.toNat, ?_, ?_, hhops ▸ hle.trans hlimit⟩
      · rw [relaysPassed?, hclient, hp]
        rfl
      · rw [hpassed, hhops]

/-! ## Chains of relays -/

/-- A message that has passed k relays is sent on no more often than 32 - k times. -/
theorem length_le_of_isChain (hpassed : relaysPassed? family first = some k) (hk : k ≤ 32)
    (h : (first :: sent).IsChain fun p q => ∃ t, Forwards family t p q) : k + sent.length ≤ 32 := by
  induction sent generalizing first k with
  | nil => exact hk
  | cons q sent ih =>
    obtain ⟨⟨t, hq⟩, hrest⟩ := List.isChain_cons_cons.1 h
    obtain ⟨k', hfirst, hnext, hle⟩ := hq.relaysPassed
    obtain rfl := Option.some.inj (hpassed.symm.trans hfirst)
    have hlength := ih hnext hle hrest
    rw [List.length_cons]
    omega

end Forwards

/-- Messages are not forwarded for ever. Each relay that sends one on counts exactly one hop, up to
its limit; only a client's message has one hop whatever the limit is. So however relays send to each
other, whatever limits they have, and whatever state they are in, a message is sent on 32 times at
most. -/
theorem no_forwarding_loop :
    (∀ t p q, Forwards .v6 t p q → ∃ emitted : V6.RelayMessage,
      V6.RelayMessage.parse q = .ok emitted ∧ emitted.type = V6.MessageType.relayForward.code ∧
        (V6.isClientMessage p = true ∧ emitted.hopCount = 1 ∨
          V6.isClientMessage p = false ∧ ∃ received, V6.RelayMessage.parse p = .ok received ∧
            emitted.hopCount.toNat = received.hopCount.toNat + 1 ∧
            emitted.hopCount.toNat ≤ t.enforcedLimit)) ∧
    (∀ t p q, Forwards .v4 t p q → ∃ received emitted : V4.Packet,
      V4.Packet.parse p = .ok received ∧ V4.Packet.parse q = .ok emitted ∧
        emitted.hops.toNat = received.hops.toNat + 1 ∧ emitted.hops.toNat ≤ t.enforcedLimit) ∧
    ∀ family first sent,
      (first :: sent).IsChain (fun p q => ∃ t, Forwards family t p q) → sent.length ≤ 32 := by
  refine ⟨fun t p q h => h.hops_v6, fun t p q h => h.hops_v4, fun family first sent h => ?_⟩
  cases sent with
  | nil => exact Nat.zero_le 32
  | cons q sent =>
    obtain ⟨⟨t, hq⟩, -⟩ := List.isChain_cons_cons.1 h
    obtain ⟨k, hfirst, -, hle⟩ := hq.relaysPassed
    have hlength := Forwards.length_le_of_isChain hfirst (Nat.le_of_succ_le hle) h
    omega

section
open V6.Relay

/-- A client's message is sent on by two relays, with hop counts 1 and 2. -/
theorem solicit_forwarded_twice :
    [(solicitOn 1).payload, firstForward.encode, V6.secondForward.encode].IsChain
        (fun p q => ∃ t, Forwards .v6 t p q) ∧
      [firstForward.encode, V6.secondForward.encode].length ≤ 32 ∧
      ∃ emitted, V6.RelayMessage.parse V6.secondForward.encode = .ok emitted ∧
        emitted.type = 12 ∧ emitted.hopCount.toNat = 2 := by
  have hfirst : Forwards .v6 twoLinks (solicitOn 1).payload firstForward.encode :=
    .v6 (sent_solicitOn ▸ List.mem_singleton_self _) (by decide)
  have hsecond : Forwards .v6 twoLinks firstForward.encode V6.secondForward.encode := by
    have hsent : ∃ x ∈ (({} : V6.Relay).receive openNetwork twoLinks
        ⟨1, globalAddress 9, firstForward.encode⟩).1.sent,
        x.payload = V6.secondForward.encode := by
      decide +kernel
    obtain ⟨x, hx, hpayload⟩ := hsent
    exact hpayload ▸ .v6 hx (by decide)
  have hchain : [(solicitOn 1).payload, firstForward.encode, V6.secondForward.encode].IsChain
      (fun p q => ∃ t, Forwards .v6 t p q) :=
    List.isChain_cons_cons.2 ⟨⟨_, hfirst⟩, List.isChain_cons_cons.2 ⟨⟨_, hsecond⟩,
      List.isChain_singleton _⟩⟩
  obtain ⟨hv6, -, hlength⟩ := no_forwarding_loop
  obtain ⟨emitted, hemitted, htype, ⟨hclient, -⟩ | ⟨-, received, hreceived, hhops, -⟩⟩ :=
    hv6 _ _ _ hsecond
  · exact absurd hclient (by decide)
  · have hone : V6.RelayMessage.parse firstForward.encode = .ok firstForward :=
      V6.RelayMessage.parse_encode (by decide)
    obtain rfl := Except.ok.inj (hone.symm.trans hreceived)
    exact ⟨hchain, hlength .v6 _ _ hchain, emitted, hemitted, htype, hhops⟩

end

end DhcpRelay
