import DhcpRelay.Proofs.V4.Delivery
import DhcpRelay.Proofs.V4.Omission
import DhcpRelay.Proofs.V6.Omission
import DhcpRelay.Proofs.V6.ReturnPath

/-!
# Inactive interfaces have no influence

From any run of a relay, messages on their way to the servers that arrived on interfaces that were
not active can be left out: all other inputs are answered as before, and the relay is the same
afterwards, but for the drops that were counted on those interfaces
(`inactive_interfaces_have_no_influence`). So nobody on such an interface can draw the replies to a
client there.
-/

namespace DhcpRelay

open History (Marked whole rest leftOut answers trace)

/-- Messages on their way to the servers that arrive on inactive interfaces have no influence on
what either relay answers to anything else, nor on its state but for the drops on those
interfaces. -/
theorem inactive_interfaces_have_no_influence :
    (∀ (r : V4.Relay) (ins : List (Marked V4.Relay.Input)),
      (∀ i ∈ leftOut ins, i.FromInactive) →
      answers V4.Relay.take V4.Relay.answer r ins =
        trace V4.Relay.take V4.Relay.answer r (rest ins) ∧
      V4.Relay.AlikeBut (fun name => ∃ i ∈ leftOut ins, i.ingressName? = some name)
        (r.run (whole ins)) (r.run (rest ins))) ∧
    ∀ (r : V6.Relay) (ins : List (Marked V6.Relay.Input)),
      (∀ i ∈ leftOut ins, i.FromInactive) →
      answers V6.Relay.take V6.Relay.answer r ins =
        trace V6.Relay.take V6.Relay.answer r (rest ins) ∧
      V6.Relay.AlikeBut (fun name => ∃ i ∈ leftOut ins, i.ingressName? = some name)
        (r.run (whole ins)) (r.run (rest ins)) := by
  refine ⟨fun r ins hins => ?_, fun r ins hins => ?_⟩
  · exact History.answers_rest (P := (· ∈ leftOut ins)) (fun _ _ i h => h.take i)
      (fun _ _ i hi h => h.take_left (hins i hi) fun _ hname => ⟨i, hi, hname⟩) (fun _ hi => hi)
      (.refl _ r)
  · exact History.answers_rest (P := (· ∈ leftOut ins)) (fun _ _ i h => h.take i)
      (fun _ _ i hi h => h.take_left (hins i hi) fun _ hname => ⟨i, hi, hname⟩) (fun _ hi => hi)
      (.refl _ r)

/-! ## A client's address on a second link -/

namespace V4.Relay

/-- A second interface that is up and has no record. -/
def strayProperty : Interface.Property :=
  { index := 3, name := "eth9", address := some (.v4 (.of 192 168 9 1)), prefixLen := 24,
    up := true }

/-- A tracker that has both interfaces. -/
def strayLink : Tracker := oneLink.interfaceCreated .v4 strayProperty

/-- The client asks for an address, the same message arrives on the second interface, and an address
is offered. -/
def strayRun : List (Marked Input) :=
  [⟨.datagram openNetwork strayLink (clientDatagram .discover), true⟩,
    ⟨.datagram openNetwork strayLink { clientDatagram .discover with ingress := 3 }, false⟩,
    ⟨.datagram openNetwork strayLink offerDatagram, true⟩]

end V4.Relay

namespace V6.Relay

/-- A tracker with a third interface that has no record. -/
def strayLink : Tracker := twoLinks.interfaceCreated .v6 (linkProperty 3 "eth9" 3)

/-- The client asks for servers, the same message arrives on the third interface, and a server
answers. -/
def strayRun : List (Marked Input) :=
  [⟨.datagram openNetwork strayLink (solicitOn 1), true⟩,
    ⟨.datagram openNetwork strayLink (solicitOn 3), false⟩,
    ⟨.datagram openNetwork strayLink replyDatagram, true⟩]

end V6.Relay

/-- In both protocols the answer goes to the interface on which the client was before the second
message, which is only counted as a drop. -/
theorem stray_messages_are_only_counted :
    let v4 := V4.Relay.strayRun
    let v6 := V6.Relay.strayRun
    ((∀ i ∈ leftOut v4, i.FromInactive) ∧
      (answers V4.Relay.take V4.Relay.answer {} v4).map (·.map (·.outcome)) =
        [some (.relayed 2), some (.delivered "eth0")] ∧
      answers V4.Relay.take V4.Relay.answer {} v4 =
        trace V4.Relay.take V4.Relay.answer {} (rest v4) ∧
      (({} : V4.Relay).run (whole v4)).peers = (({} : V4.Relay).run (rest v4)).peers ∧
      (({} : V4.Relay).run (whole v4)).counters.ofInterface "eth9" (·.drops) = 1) ∧
    (∀ i ∈ leftOut v6, i.FromInactive) ∧
      (answers V6.Relay.take V6.Relay.answer {} v6).map (·.map (·.outcome)) =
        [some (.relayed 1), some (.delivered "eth0")] ∧
      answers V6.Relay.take V6.Relay.answer {} v6 =
        trace V6.Relay.take V6.Relay.answer {} (rest v6) ∧
      (({} : V6.Relay).run (whole v6)).peers = (({} : V6.Relay).run (rest v6)).peers ∧
      (({} : V6.Relay).run (whole v6)).counters.ofInterface "eth9" (·.drops) = 1 := by
  intro v4 v6
  have hlink : V4.Relay.strayLink.Reachable .v4 :=
    ⟨[.setGlobal (.enabled 4), .setInterface V4.Relay.linkConfig,
      .interfaceCreated V4.Relay.linkProperty, .interfaceCreated V4.Relay.strayProperty], rfl⟩
  have hstray : ∀ i ∈ leftOut v4, i.FromInactive :=
    List.forall_mem_singleton.2 ⟨hlink, by decide +kernel, V4.Relay.clientPacket .discover,
      .discover, V4.Packet.parse_encode (by decide), rfl, rfl⟩
  have hstray' : ∀ i ∈ leftOut v6, i.FromInactive :=
    List.forall_mem_singleton.2 ⟨by decide +kernel, .solicit, by decide, .inl rfl⟩
  obtain ⟨hanswers, halike⟩ := inactive_interfaces_have_no_influence.1 {} v4 hstray
  obtain ⟨hanswers', halike'⟩ := inactive_interfaces_have_no_influence.2 {} v6 hstray'
  exact ⟨⟨hstray, by decide +kernel, hanswers, halike.peers_eq, by decide +kernel⟩,
    hstray', by decide +kernel, hanswers', halike'.peers_eq, by decide +kernel⟩

end DhcpRelay
