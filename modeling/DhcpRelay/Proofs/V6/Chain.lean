import DhcpRelay.Proofs.Tracker.HopLimit
import DhcpRelay.Proofs.V6.ReturnPath

/-!
# Chains of relays

A client's message may pass several relays on its way to the servers. Each puts what it received
into a relay message of its own, so what the k-th relay sends holds k messages one in another, and
its hop count is k: by induction on k, since what a relay sends is read by the next one as it was
made. A reply that nests in the same way loses one level at each relay, which finds the peer of that
level where it saw it on the way up. So what leaves the last relay is, octet for octet, what the
server put inside.
-/

namespace DhcpRelay.V6

open Relay

/-- A relay of a chain: its state when the message arrives and what else there is then, what it
takes in meanwhile, and what there is when the reply arrives. -/
structure Hop where
  relay : Relay
  net : Network
  tracker : Tracker
  ingress : Int
  source : V6Address
  meanwhile : List Input
  netBack : Network
  trackerBack : Tracker
  ingressBack : Int
  sourceBack : V6Address

namespace Hop

/-- The message as it arrives. -/
def datagram (h : Hop) (payload : Bytes) : Datagram := ⟨h.ingress, h.source, payload⟩

/-- The name of the interface on which the message arrives. -/
def interface? (h : Hop) : Option String := ingressName? h.tracker h.ingress

/-- What comes of the message. -/
def receipt (h : Hop) (payload : Bytes) : Receipt :=
  (h.relay.receive h.net h.tracker (h.datagram payload)).1

/-- The relay when the reply arrives. -/
def waiting (h : Hop) (payload : Bytes) : Relay :=
  (h.relay.receive h.net h.tracker (h.datagram payload)).2.run h.meanwhile

/-- What comes of the reply to the message. -/
def receiptBack (h : Hop) (payload reply : Bytes) : Receipt :=
  ((h.waiting payload).receive h.netBack h.trackerBack ⟨h.ingressBack, h.sourceBack, reply⟩).1

end Hop

/-- A message that has passed so many relays. -/
inductive Level : Nat → Bytes → Prop where
  | client {payload : Bytes} (h : isClientMessage payload) : Level 0 payload
  | relayed {k : Nat} {payload : Bytes} {m : RelayMessage}
      (hparse : RelayMessage.parse payload = .ok m)
      (htype : m.type = MessageType.relayForward.code) (hhops : m.hopCount.toNat = k + 1) :
      Level (k + 1) payload

/-- A reply answers a relay message: it has the same hop count, link and peer, and holds `inner`. -/
structure Answers (forward reply : RelayMessage) (inner : Bytes) : Prop where
  type_eq : reply.type = MessageType.relayReply.code
  hopCount_eq : reply.hopCount = forward.hopCount
  linkAddress_eq : reply.linkAddress = forward.linkAddress
  peerAddress_eq : reply.peerAddress = forward.peerAddress
  inner_eq : reply.relayMessage = .ok inner

/-- An answer that is made as such is one. -/
theorem answers_answer (forward : RelayMessage) (inner : Bytes) :
    Answers forward (forward.answer inner) inner := ⟨rfl, rfl, rfl, rfl, rfl⟩

/-- The type of a relay message is read off its first octet. -/
theorem messageType?_of_parse {payload : Bytes} {m : RelayMessage} {type : MessageType}
    (hparse : RelayMessage.parse payload = .ok m) (htype : m.type = type.code) :
    messageType? payload = some type := by
  rw [messageType?, RelayMessage.head?_of_parse hparse, htype]
  exact MessageType.ofCode?_code type

/-- What leaves a relay of the chain on its way to the servers has passed one relay more, names the
sender as its peer and holds what the relay received. All transmissions carry it, and the sender has
been seen. -/
theorem Hop.sends {h : Hop} {k : Nat} {payload : Bytes} (hlevel : Level k payload)
    {x : Transmission} (hx : x ∈ (h.receipt payload).sent) (hfits : x.payload.length ≤ 65535) :
    ∃ f, RelayMessage.parse x.payload = .ok f ∧ f.type = MessageType.relayForward.code ∧
      f.hopCount.toNat = k + 1 ∧ f.peerAddress = h.source ∧ f.relayMessage = .ok payload ∧
      (∀ y ∈ (h.receipt payload).sent, y.payload = x.payload) ∧
      sighting? h.tracker (h.datagram payload) = h.interface? := by
  cases hlevel with
  | client hclient =>
    obtain ⟨a, hactive, hseen, hpayload⟩ := sent_of_client hclient hx
    rw [hpayload] at hfits
    refine ⟨clientForward a (h.datagram payload), ?_, rfl, rfl, rfl,
      RelayMessage.relayMessage_forward, fun y hy => ?_,
      hseen.trans (ingressName?_of_activeAt? hactive).symm⟩
    · rw [hpayload]
      exact RelayMessage.parse_encode_forward (Nat.lt_succ_of_le hfits)
    · obtain ⟨b, hb, -, hy⟩ := sent_of_client hclient hy
      obtain rfl := Option.some.inj (hactive.symm.trans hb)
      rw [hpayload, hy]
  | relayed hparse htype hhops =>
    have hforward := messageType?_of_parse hparse htype
    obtain ⟨a, m, hactive, hseen, hm, hlimit, hpayload⟩ := sent_of_forward hforward hx
    obtain rfl := Except.ok.inj (hm.symm.trans hparse)
    rw [hpayload] at hfits
    refine ⟨relayedForward a m (h.datagram payload), ?_, rfl, ?_, rfl,
      RelayMessage.relayMessage_forward, fun y hy => ?_,
      hseen.trans (ingressName?_of_activeAt? hactive).symm⟩
    · rw [hpayload]
      exact RelayMessage.parse_encode_forward (Nat.lt_succ_of_le hfits)
    · rw [← hhops]
      exact Tracker.toNat_add_one hlimit
    · obtain ⟨b, n, hb, -, hn, -, hy⟩ := sent_of_forward hforward hy
      obtain rfl := Option.some.inj (hactive.symm.trans hb)
      obtain rfl := Except.ok.inj (hm.symm.trans hn)
      rw [hpayload, hy]

/-- A reply that names the sender of the message makes one transmission on its way back, of what is
inside, to that sender on the interface on which the message arrived. -/
theorem Hop.returns {h : Hop} {payload reply inner : Bytes} {m : RelayMessage} {A : String}
    {egress : ActiveInterface}
    (hseen : sighting? h.tracker (h.datagram payload) = some A)
    (hmeanwhile : ∀ C, lastSeen? h.source h.meanwhile = some C → C = A)
    (hreply : IsReply reply m inner) (hpeer : m.peerAddress = h.source)
    (hknown : (ingressName? h.trackerBack h.ingressBack).isSome)
    (hegress : h.trackerBack.activeNamed? A = some egress) :
    let destination := replyDestination egress.property.index h.source inner
    (h.receiptBack payload reply).sent =
        [⟨destination, inner, h.netBack.accepts 0 destination⟩] ∧
      (h.receiptBack payload reply).outcome =
        if h.netBack.accepts 0 destination then .delivered A else .dropped .sendFailed := by
  intro destination
  obtain ⟨ingress, hingress⟩ := Option.isSome_iff_exists.1 hknown
  have hfound : (h.waiting payload).peers.get? m.peerAddress = some A := by
    rw [hpeer]
    refine (get?_peers_receive_run hseen h.meanwhile).trans (congrArg some ?_)
    show (lastSeen? h.source h.meanwhile).getD A = A
    cases hl : lastSeen? h.source h.meanwhile with
    | none => rfl
    | some C => exact hmeanwhile C hl
  have hreceive : (h.waiting payload).receive h.netBack h.trackerBack
      ⟨h.ingressBack, h.sourceBack, reply⟩ = _ :=
    receive_of_reply hreply hingress hfound hegress
  rw [Hop.receiptBack, hreceive, sent_sendReply, outcome_sendReply, hpeer]
  exact ⟨rfl, rfl⟩

/-! ## Whole chains -/

/-- A client's message passes the relays of a chain one after another: each sends what the next one
receives, and all of it fits a datagram. -/
structure Ascends (n : Nat) (hop : Nat → Hop) (up : Nat → Bytes) : Prop where
  client : isClientMessage (up 0)
  sends : ∀ k < n, ∃ x ∈ ((hop k).receipt (up k)).sent, x.payload = up (k + 1)
  fits : ∀ k < n, (up (k + 1)).length ≤ 65535

/-- The server's message comes back nested as the client's message arrived, each relay knows the
interface on which its reply arrives, and none has seen the sender of its message elsewhere
since. -/
structure Descends (n : Nat) (hop : Nat → Hop) (up down : Nat → Bytes) : Prop where
  ne_nil : down 0 ≠ []
  innermost : ∀ octet, (down 0).head? = some octet → MessageType.isRelayMessage octet = false
  answers : ∀ k < n, ∃ f m, RelayMessage.parse (up (k + 1)) = .ok f ∧
    RelayMessage.parse (down (k + 1)) = .ok m ∧ Answers f m (down k)
  known : ∀ k < n, (ingressName? (hop k).trackerBack (hop k).ingressBack).isSome
  unmoved : ∀ k < n, ∀ C, lastSeen? (hop k).source (hop k).meanwhile = some C →
    (hop k).interface? = some C

section
variable {n : Nat} {hop : Nat → Hop} {up down : Nat → Bytes}

/-- What the k-th relay receives has passed k relays. -/
theorem Ascends.level (h : Ascends n hop up) {k : Nat} (hk : k ≤ n) : Level k (up k) := by
  induction k with
  | zero => exact .client h.client
  | succ k ih =>
    obtain ⟨x, hx, hxp⟩ := h.sends k hk
    obtain ⟨f, hparse, htype, hhops, -⟩ := Hop.sends (ih (Nat.le_of_succ_le hk)) hx
      (hxp ▸ h.fits k hk)
    rw [hxp] at hparse
    exact .relayed hparse htype hhops

/-- The messages that come back are not empty. -/
theorem Descends.ne_nil_of_le (h : Descends n hop up down) {k : Nat} (hk : k ≤ n) :
    down k ≠ [] := by
  cases k with
  | zero => exact h.ne_nil
  | succ k =>
    obtain ⟨-, m, -, hm, -⟩ := h.answers k hk
    intro hnil
    have hhead := RelayMessage.head?_of_parse hm
    rw [hnil] at hhead
    cases hhead

/-- The innermost of the messages that come back is for a client, the others are for relays. -/
theorem Descends.isRelayMessage_iff (h : Descends n hop up down) {k : Nat} (hk : k ≤ n) :
    (down k).head?.any MessageType.isRelayMessage = decide (k ≠ 0) := by
  cases k with
  | zero =>
    cases ho : (down 0).head? with
    | none => rfl
    | some octet => exact h.innermost octet ho
  | succ k =>
    obtain ⟨f, m, -, hm, hanswers⟩ := h.answers k hk
    rw [RelayMessage.head?_of_parse hm, hanswers.type_eq]
    rfl

/-- A chain of relays is transparent. On the way to the servers all that the k-th relay sends is one
relay message that can be read, has hop count k, names the address from which the relay received a
message as its peer, and holds that message octet for octet. On the way back, if a message comes
that is nested in the same way, each relay whose interface is active makes one transmission, of what
it finds one level down, to the address from which it had the message: to the client's port from the
first relay and to the relays' port from the others, for a link-local address on the link of the
interface on which the message arrived. If the network takes the transmission, it is delivered on
that interface. -/
theorem chain_transparent (hup : Ascends n hop up) :
    (∀ k < n, (∀ x ∈ ((hop k).receipt (up k)).sent, x.payload = up (k + 1)) ∧
      ∃ f, RelayMessage.parse (up (k + 1)) = .ok f ∧ f.type = MessageType.relayForward.code ∧
        f.hopCount.toNat = k + 1 ∧ f.peerAddress = (hop k).source ∧
        f.relayMessage = .ok (up k)) ∧
    (Descends n hop up down →
      ∀ k < n, ∀ A egress, (hop k).interface? = some A →
        (hop k).trackerBack.activeNamed? A = some egress →
        let destination : Destination :=
          ⟨(hop k).source, if k = 0 then clientPort else serverPort,
            if (hop k).source.isLinkLocal then scopeOf egress.property.index else 0⟩
        ((hop k).receiptBack (up k) (down (k + 1))).sent =
            [⟨destination, down k, (hop k).netBack.accepts 0 destination⟩] ∧
          ((hop k).netBack.accepts 0 destination = true →
            ((hop k).receiptBack (up k) (down (k + 1))).outcome = .delivered A)) := by
  have hsends : ∀ k < n, ∃ f, RelayMessage.parse (up (k + 1)) = .ok f ∧
      f.type = MessageType.relayForward.code ∧ f.hopCount.toNat = k + 1 ∧
      f.peerAddress = (hop k).source ∧ f.relayMessage = .ok (up k) ∧
      (∀ x ∈ ((hop k).receipt (up k)).sent, x.payload = up (k + 1)) ∧
      sighting? (hop k).tracker ((hop k).datagram (up k)) = (hop k).interface? := by
    intro k hk
    obtain ⟨x, hx, hxp⟩ := hup.sends k hk
    have h := Hop.sends (hup.level (Nat.le_of_lt hk)) hx (hxp ▸ hup.fits k hk)
    rwa [hxp] at h
  refine ⟨fun k hk => ?_, fun hdown k hk A egress hA hegress => ?_⟩
  · obtain ⟨f, hparse, htype, hhops, hpeer, hinner, hall, -⟩ := hsends k hk
    exact ⟨hall, f, hparse, htype, hhops, hpeer, hinner⟩
  · obtain ⟨f, hf, -, -, hpeer, -, -, hseen⟩ := hsends k hk
    obtain ⟨f', m, hf', hm, hanswers⟩ := hdown.answers k hk
    obtain rfl := Except.ok.inj (hf.symm.trans hf')
    have hreply : IsReply (down (k + 1)) m (down k) :=
      ⟨messageType?_of_parse hm hanswers.type_eq, hm, hanswers.inner_eq,
        hdown.ne_nil_of_le (Nat.le_of_lt hk)⟩
    have hport : replyDestination egress.property.index (hop k).source (down k) =
        ⟨(hop k).source, if k = 0 then clientPort else serverPort,
          if (hop k).source.isLinkLocal then scopeOf egress.property.index else 0⟩ := by
      rw [replyDestination, hdown.isRelayMessage_iff (Nat.le_of_lt hk)]
      by_cases hzero : k = 0 <;> simp [hzero]
    obtain ⟨hsent, houtcome⟩ := Hop.returns (hseen.trans hA)
      (fun C hC => Option.some.inj ((hdown.unmoved k hk C hC).symm.trans hA)) hreply
      (hanswers.peerAddress_eq.trans hpeer) (hdown.known k hk) hegress
    rw [hport] at hsent houtcome
    exact ⟨hsent, fun haccepts => houtcome.trans (if_pos haccepts)⟩

end

/-! ## Two relays -/

/-- Two relays with two links each. The first one has the message from a client, the second one from
the first one. Meanwhile the first one has seen another client on its other link. -/
def twoRelays : Nat → Hop
  | 0 =>
    { relay := {}, net := openNetwork, tracker := twoLinks, ingress := 1, source := sharedAddress,
      meanwhile := [.datagram openNetwork twoLinks ⟨2, globalAddress 7, [1, 0, 0, 2]⟩],
      netBack := openNetwork, trackerBack := twoLinks, ingressBack := 2,
      sourceBack := globalAddress 0 }
  | _ =>
    { relay := {}, net := openNetwork, tracker := twoLinks, ingress := 1,
      source := globalAddress 9, meanwhile := [], netBack := openNetwork, trackerBack := twoLinks,
      ingressBack := 2, sourceBack := globalAddress 0 }

/-- What the second relay sends on. -/
def secondForward : RelayMessage :=
  .forward 2 .unspecified (globalAddress 9) firstForward.encode

/-- The client's message on its way. -/
def requestAt : Nat → Bytes
  | 0 => [1, 0, 0, 1]
  | 1 => firstForward.encode
  | _ => secondForward.encode

/-- The server's message on its way. -/
def replyAt : Nat → Bytes
  | 0 => [2, 0, 0, 1]
  | 1 => (firstForward.answer [2, 0, 0, 1]).encode
  | _ => (secondForward.answer (firstForward.answer [2, 0, 0, 1]).encode).encode

/-- A client's message passes both relays, and the server's message passes them on its way back. -/
theorem twoRelays_transparent :
    Ascends 2 twoRelays requestAt ∧ Descends 2 twoRelays requestAt replyAt ∧
      ((twoRelays 1).receiptBack (requestAt 1) (replyAt 2)).sent =
        [⟨⟨globalAddress 9, serverPort, 0⟩, replyAt 1, true⟩] ∧
      ((twoRelays 0).receiptBack (requestAt 0) (replyAt 1)).sent =
        [⟨⟨sharedAddress, clientPort, 1⟩, replyAt 0, true⟩] := by
  have hup : Ascends 2 twoRelays requestAt :=
    ⟨by decide, by decide +kernel, by decide +kernel⟩
  have hunseen : ∀ k < 2, lastSeen? (twoRelays k).source (twoRelays k).meanwhile = none := by
    decide +kernel
  have hdown : Descends 2 twoRelays requestAt replyAt := by
    refine ⟨by decide, fun octet ho => ?_, fun k hk => ?_, by decide +kernel, fun k hk C hC => ?_⟩
    · obtain rfl := Option.some.inj ho
      rfl
    · match k, hk with
      | 0, _ => exact ⟨_, _, RelayMessage.parse_encode (by decide),
          RelayMessage.parse_encode_answer _ (by decide), answers_answer _ _⟩
      | 1, _ => exact ⟨_, _, RelayMessage.parse_encode (by decide +kernel),
          RelayMessage.parse_encode_answer _ (by decide +kernel), answers_answer _ _⟩
    · cases (hunseen k hk).symm.trans hC
  have hactive : twoLinks.activeNamed? "eth0" = some ⟨linkProperty 1 "eth0" 1,
      { name := "eth0", enable := true, servers := ["2001:db8::1"] }⟩ := by
    decide +kernel
  have h := (chain_transparent hup).2 hdown
  exact ⟨hup, hdown, (h 1 (by decide) "eth0" _ (by decide +kernel) hactive).1,
    (h 0 (by decide) "eth0" _ (by decide +kernel) hactive).1⟩

end DhcpRelay.V6
