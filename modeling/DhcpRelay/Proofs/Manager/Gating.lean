import DhcpRelay.Manager.Basic
import DhcpRelay.Proofs.Manager.Serving
import DhcpRelay.Proofs.V4.Links
import DhcpRelay.Proofs.V6.ReturnPath

/-!
# Transmissions are gated by activation

The relays keep what they have learnt, so the tables of peers and of handles are full of interfaces
that are long gone. Still nothing is sent for an interface that is not served: whatever a relay
remembers, it looks the interface up in the tracker before it sends (`V4.Relay.gated_receive`,
`V6.Relay.gated_receive`). All it needs of the tracker is that its active set is up to date, and
that holds at every point of a run of manager and datagrams (`RelayManager.transmissions_gated`).
-/

namespace DhcpRelay

/-! ## A DHCPv4 relay -/

namespace V4.Relay

/-- The index of the interface on which the client of a packet was seen last, if it has one now. -/
def egress? (t : Tracker) (r : Relay) (d : Datagram) : Option Int := do
  let p ← (Packet.parse d.payload).toOption
  let name ← r.peers.get? p.clientKey
  t.props.index? name

/-- What a datagram makes a relay attempt, it attempts for an interface that is served. -/
structure Gated (net : Network) (t : Tracker) (r : Relay) (d : Datagram) : Prop where
  /-- A request goes to servers only if the interface is served on which it arrived. -/
  request (h : (r.receive net t d).1.sent ≠ []) : t.Serves d.ingress
  /-- A link is opened only if the interface is served on which the client was seen, and it is the
  link of that interface. -/
  opening (h : (r.receive net t d).2.openings ≠ r.openings) : ∃ index opening,
    r.egress? t d = some index ∧ t.Serves index ∧ opening.index = index ∧
      (r.receive net t d).2.openings = r.openings ++ [opening]
  /-- A reply is sent only if the interface is served on which the client was seen, and it is sent
  through the handle of that interface. -/
  reply {x : FrameTransmission} (h : x ∈ (r.receive net t d).1.frames) : ∃ index,
    r.egress? t d = some index ∧ t.Serves index ∧
      (r.receive net t d).2.handles.get? index = some x.handle

/-- A datagram makes a relay attempt to send a request that arrived on the interface at an index, or
to open the link of that interface or send a reply there. -/
def TransmitsFor (net : Network) (t : Tracker) (r : Relay) (d : Datagram) (index : Int) : Prop :=
  (r.receive net t d).1.sent ≠ [] ∧ d.ingress = index ∨
    ((r.receive net t d).2.openings ≠ r.openings ∨ (r.receive net t d).1.frames ≠ []) ∧
      r.egress? t d = some index

section
variable {net : Network} {t : Tracker} {r : Relay} {d : Datagram} {index : Int}

/-- A reply that is expected has its client's interface as egress. -/
theorem Expects.egress?_eq {ingress : Interface.Property} {type : MessageType} {p : Packet}
    {name : String} (h : Expects t r d ingress type p name) :
    r.egress? t d = t.props.index? name := by
  simp [egress?, h.parse_eq, h.peer_eq, Except.toOption]

/-- Whatever a relay remembers, a tracker whose active set is up to date gates its attempts. -/
theorem gated_receive (ht : t.WellFormed) (net : Network) (r : Relay) (d : Datagram) :
    Gated net t r d where
  request h := by
    obtain ⟨x, hx⟩ := List.exists_mem_of_ne_nil _ h
    obtain ⟨ingress, active, address, type, p, hadmits, -⟩ := of_mem_sent hx
    have hindex : ingress.index = d.ingress := ht.props.index_eq _ _ hadmits.ingress_eq
    exact hindex ▸ ht.serves_of_activeAt? hadmits.active_eq
  opening h := by
    obtain ⟨-, hsame⟩ | ⟨_, _, _, _, egress, hexpects, hegress, -, hopenings⟩ :=
      links_receive net t r d
    · exact absurd hsame h
    · obtain ⟨hindex, hserves⟩ := ht.serves_of_activeNamed? hegress
      obtain hsame | ⟨opening, hlink, hopened⟩ := openings_handle net r egress.property
      · exact absurd (hopenings.trans hsame) h
      · exact ⟨_, opening, hexpects.egress?_eq.trans hindex, hserves, hlink,
          hopenings.trans hopened⟩
  reply {x} hx := by
    have hend := handled_receive net t r d
    generalize r.receive net t d = result at hx hend
    cases hend with
    | ignored | notActive | noAddress | hopLimit | missingServerId | unknownClient
    | egressNotActive | egressNoAddress | handleUnavailable => cases hx
    | request =>
      rw [frames_sendToServers] at hx
      cases hx
    | reply hexpects hegress hsource hhandle =>
      rw [frames_sendReply] at hx
      obtain rfl := List.mem_singleton.1 hx
      obtain ⟨hindex, hserves⟩ := ht.serves_of_activeNamed? hegress
      refine ⟨_, hexpects.egress?_eq.trans hindex, hserves, ?_⟩
      rw [(links_sendReply _ _ _ _ _).1]
      exact (handle_eq_some hhandle).1

/-- A gated relay transmits for interfaces that are served. -/
theorem Gated.serves (h : Gated net t r d) (htransmits : TransmitsFor net t r d index) :
    t.Serves index := by
  obtain ⟨hsent, rfl⟩ | ⟨hopened | hframes, hegress⟩ := htransmits
  · exact h.request hsent
  · obtain ⟨i, -, hi, hserves, -⟩ := h.opening hopened
    obtain rfl := Option.some.inj (hi.symm.trans hegress)
    exact hserves
  · obtain ⟨x, hx⟩ := List.exists_mem_of_ne_nil _ hframes
    obtain ⟨i, hi, hserves, -⟩ := h.reply hx
    obtain rfl := Option.some.inj (hi.symm.trans hegress)
    exact hserves

end

end V4.Relay

/-! ## A DHCPv6 relay -/

namespace V6.Relay

/-- The index of the interface on which the peer of a reply was seen last, if it has one now. -/
def egress? (t : Tracker) (r : Relay) (d : Datagram) : Option Int := do
  let m ← (RelayMessage.parse d.payload).toOption
  let name ← r.peers.get? m.peerAddress
  t.props.index? name

/-- What a datagram makes a relay attempt, it attempts for an interface that is served. -/
structure Gated (net : Network) (t : Tracker) (r : Relay) (d : Datagram) : Prop where
  /-- A message goes to servers and upstream links only if the interface is served on which it
  arrived. -/
  request (hmessage : messageType? d.payload ≠ some .relayReply)
    (h : (r.receive net t d).1.sent ≠ []) : t.Serves d.ingress
  /-- A reply is sent only if the interface is served on which the peer was seen, and it is sent on
  the link of that interface if the peer's address is unique there only. -/
  reply (hreply : messageType? d.payload = some .relayReply) {x : Transmission}
    (h : x ∈ (r.receive net t d).1.sent) : ∃ index, r.egress? t d = some index ∧
      t.Serves index ∧ (x.destination.address.isLinkLocal = true →
        x.destination.scope = scopeOf index)

/-- A datagram makes a relay attempt to send a message that arrived on the interface at an index, or
to send a reply there. -/
def TransmitsFor (net : Network) (t : Tracker) (r : Relay) (d : Datagram) (index : Int) : Prop :=
  (r.receive net t d).1.sent ≠ [] ∧
    if messageType? d.payload = some .relayReply then r.egress? t d = some index
    else d.ingress = index

section
variable {net : Network} {t : Tracker} {r : Relay} {d : Datagram} {index : Int}

/-- Whatever a relay remembers, a tracker whose active set is up to date gates its attempts. -/
theorem gated_receive (ht : t.WellFormed) (net : Network) (r : Relay) (d : Datagram) :
    Gated net t r d where
  request hmessage h := by
    obtain ⟨x, hx⟩ := List.exists_mem_of_ne_nil _ h
    rcases sent_cases hx with ⟨-, a, hactive, -⟩ | ⟨-, a, m, hactive, -⟩ | hreply
    · exact ht.serves_of_activeAt? hactive
    · exact ht.serves_of_activeAt? hactive
    · exact absurd hreply hmessage
  reply hreply {x} hx := by
    have hend := handled_receive net t r d
    generalize r.receive net t d = result at hx hend
    cases hend with
    | ignored | notActive | hopLimit | unknownPeer | egressNotActive => cases hx
    | client hactive hclient =>
      simp [isClientMessage, hreply, MessageType.isClientMessage] at hclient
    | forward hactive hforward => cases hforward.symm.trans hreply
    | @reply m inner name egress hm hpeer hegress =>
      rw [sent_sendReply] at hx
      obtain rfl := List.mem_singleton.1 hx
      obtain ⟨hindex, hserves⟩ := ht.serves_of_activeNamed? hegress
      refine ⟨_, ?_, hserves, fun hlinkLocal => if_pos hlinkLocal⟩
      simpa [egress?, hm.parse_eq, hpeer, Except.toOption] using hindex

/-- A gated relay transmits for interfaces that are served. -/
theorem Gated.serves (h : Gated net t r d) (htransmits : TransmitsFor net t r d index) :
    t.Serves index := by
  obtain ⟨hsent, hindex⟩ := htransmits
  split at hindex
  · next hreply =>
    obtain ⟨x, hx⟩ := List.exists_mem_of_ne_nil _ hsent
    obtain ⟨i, hi, hserves, -⟩ := h.reply hreply hx
    obtain rfl := Option.some.inj (hi.symm.trans hindex)
    exact hserves
  · next hmessage => exact hindex ▸ h.request hmessage hsent

end

end V6.Relay

/-! ## A manager with both relays -/

/-- A manager whose processors relay. -/
abbrev RelayManager := Manager V4.Processor V6.Processor

namespace RelayManager

/-- What happens to a manager and its relays, with the sockets and the network as they are at that
moment. -/
inductive Input where
  | operate (binds₄ binds₆ : Nat → Bool) (net : V4.Network) (o : Manager.Operation)
  | receive₄ (net : V4.Network) (d : V4.Datagram)
  | receive₆ (net : V6.Network) (d : V6.Datagram)
  | loopEnded (family : Family)

/-- Takes one thing in. Each relay looks at the tracker of its family. -/
def take (m : RelayManager) : Input → RelayManager
  | .operate binds₄ binds₆ net o =>
    Manager.apply ⟨V4.Processor.lifecycle binds₄ net, V6.Processor.lifecycle binds₆⟩ m o
  | .receive₄ net d =>
    { m with v4.processor.relay := (m.v4.processor.relay.receive net m.v4.tracker d).2 }
  | .receive₆ net d =>
    { m with v6.processor.relay := (m.v6.processor.relay.receive net m.v6.tracker d).2 }
  | .loopEnded .v4 => { m with v4.processor := m.v4.processor.loopEnded }
  | .loopEnded .v6 => { m with v6.processor := m.v6.processor.loopEnded }

/-- Takes things in one after another. -/
def run (m : RelayManager) (ins : List Input) : RelayManager := ins.foldl take m

/-- Before anything happened. -/
def start : RelayManager := Manager.fresh {} {}

/-- An input is an operation of the kind that meets a need of interfaces of the family. -/
def Input.CanMeet (family : Family) (need : Tracker.Need) : Input → Prop
  | operate _ _ _ o => o.CanMeet family need
  | receive₄ .. | receive₆ .. | loopEnded _ => False

/-- Some datagram would make the relay of a family transmit for the interface at an index. -/
def TransmitsFor (m : RelayManager) (family : Family) (index : Int) : Prop :=
  match family with
  | .v4 => ∃ net d, m.v4.processor.relay.TransmitsFor net m.v4.tracker d index
  | .v6 => ∃ net d, m.v6.processor.relay.TransmitsFor net m.v6.tracker d index

section
variable {m : RelayManager} {family : Family} {need : Tracker.Need} {i : Input}

@[simp] theorem tracker_receive₄ (m : RelayManager) (net : V4.Network) (d : V4.Datagram)
    (family : Family) : (m.take (.receive₄ net d)).tracker family = m.tracker family := by
  cases family <;> rfl

@[simp] theorem tracker_receive₆ (m : RelayManager) (net : V6.Network) (d : V6.Datagram)
    (family : Family) : (m.take (.receive₆ net d)).tracker family = m.tracker family := by
  cases family <;> rfl

@[simp] theorem tracker_loopEnded (m : RelayManager) (other family : Family) :
    (m.take (.loopEnded other)).tracker family = m.tracker family := by
  cases other <;> cases family <;> rfl

/-- What elementary operations keep in the trackers of their families, runs from the beginning keep:
datagrams and the ends of loops leave the trackers alone. -/
theorem tracker_run_of_step {P : Family → Tracker → Prop}
    (hstep : ∀ {σ : Type} (l : Lifecycle σ) (family : Family) (a : Agent σ) (o : Agent.Operation),
      P family a.tracker → P family (a.apply l family o).tracker)
    (hstart : ∀ family, P family (start.tracker family)) (ins : List Input) (family : Family) :
    P family ((start.run ins).tracker family) := by
  have hrun : ∀ {m : RelayManager}, (∀ family, P family (m.tracker family)) →
      P family ((m.run ins).tracker family) := by
    intro m h
    induction ins generalizing m with
    | nil => exact h family
    | cons i ins ih =>
      refine ih fun family => ?_
      cases i with
      | operate binds₄ binds₆ net o => exact Manager.tracker_apply_of_step hstep h o family
      | receive₄ net d => exact m.tracker_receive₄ net d family ▸ h family
      | receive₆ net d => exact m.tracker_receive₆ net d family ▸ h family
      | loopEnded other => exact m.tracker_loopEnded other family ▸ h family
  exact hrun hstart

/-- Whatever happens to a manager from the beginning, its trackers are well-formed. -/
theorem wellFormed_run (ins : List Input) (family : Family) :
    ((start.run ins).tracker family).WellFormed :=
  tracker_run_of_step (P := fun _ t => t.WellFormed) Agent.wellFormed_apply
    (Manager.wellFormed_fresh _ _) ins family

/-- What is not met stays so unless an operation can meet it. -/
theorem not_met_take (h : ¬ need.Met (m.tracker family)) (hi : ¬ i.CanMeet family need) :
    ¬ need.Met ((m.take i).tracker family) := by
  cases i with
  | operate binds₄ binds₆ net o => exact Manager.not_met_apply h hi
  | receive₄ net d => rwa [tracker_receive₄]
  | receive₆ net d => rwa [tracker_receive₆]
  | loopEnded other => rwa [tracker_loopEnded]

/-- What is not met stays so as long as no operation can meet it. -/
theorem not_met_run (h : ¬ need.Met (m.tracker family)) {ins : List Input}
    (hins : ∀ i ∈ ins, ¬ i.CanMeet family need) : ¬ need.Met ((m.run ins).tracker family) := by
  induction ins generalizing m with
  | nil => exact h
  | cons i ins ih =>
    exact ih (not_met_take h (hins i List.mem_cons_self)) fun j hj =>
      hins j (List.mem_cons_of_mem i hj)

/-- A manager whose trackers are well-formed transmits for interfaces that are served. -/
theorem TransmitsFor.serves {index : Int} (hm : ∀ family, (m.tracker family).WellFormed)
    (h : m.TransmitsFor family index) : (m.tracker family).Serves index := by
  cases family with
  | v4 =>
    obtain ⟨net, d, h⟩ := h
    exact (V4.Relay.gated_receive (hm .v4) net _ d).serves h
  | v6 =>
    obtain ⟨net, d, h⟩ := h
    exact (V6.Relay.gated_receive (hm .v6) net _ d).serves h

/-- At every point of a run of a manager and the datagrams of its relays, whatever arrives: requests
go on only if the interface is served on which they arrived, and links are opened and replies sent
only for the interface on which the client was seen, if that one is served.

So once an interface needs something that it does not have, no datagram makes a relay transmit for
it, until an operation of the kind that meets the need. And the need is not met after an operation
that disables or deletes a record, by itself or as part of a load, or by which the interface goes
down, loses its address, or loses its name to another index. -/
theorem transmissions_gated (ins : List Input) :
    let m := start.run ins
    (∀ net d, m.v4.processor.relay.Gated net m.v4.tracker d) ∧
    (∀ net d, m.v6.processor.relay.Gated net m.v6.tracker d) ∧
    (∀ family need, ¬ need.Met (m.tracker family) →
      ∀ after, (∀ i ∈ after, ¬ i.CanMeet family need) →
      ∀ index, need.Concerns ((m.run after).tracker family) index →
        ¬ (m.run after).TransmitsFor family index) ∧
    ∀ family need o, Manager.Withdraws family (m.tracker family) need o → ∀ binds₄ binds₆ net,
      ¬ need.Met ((m.take (.operate binds₄ binds₆ net o)).tracker family) := by
  intro m
  have hm : ∀ family, (m.tracker family).WellFormed := wellFormed_run ins
  refine ⟨fun net d => V4.Relay.gated_receive (hm .v4) net _ d,
    fun net d => V6.Relay.gated_receive (hm .v6) net _ d, ?_, ?_⟩
  · intro family need hneed after hafter index hconcerns htransmits
    have hlater : ∀ family, ((m.run after).tracker family).WellFormed := fun family => by
      have hrun := wellFormed_run (ins ++ after) family
      rwa [run, List.foldl_append] at hrun
    exact not_met_run hneed hafter ((htransmits.serves hlater).met hconcerns)
  · intro family need o hwithdraws binds₄ binds₆ net
    exact hwithdraws.not_met _

end

/-! ## A link that goes down -/

/-- An operation while every socket opens and no link does. -/
def operation (o : Manager.Operation) : Input :=
  .operate (fun _ => true) (fun _ => true) .offline o

/-- An interface is configured and comes up, and a client there asks for servers. -/
def service : List Input :=
  [operation (.configure .v6 (.updateGlobal (.enabled 32))),
    operation (.configure .v6 (.updateInterface
      { name := "eth0", enable := true, servers := ["2001:db8::1"] })),
    operation (.notify { family := .v6, index := 1, name := "eth0",
                         address := some "2001:db8:0:1::1/64", change := .created true }),
    .receive₆ V6.Relay.openNetwork (V6.Relay.solicitOn 1)]

/-- The interface goes down. -/
def linkDown : Interface.Event :=
  { family := .v6, index := 1, name := "eth0", address := none, change := .stateChanged false }

/-- The relay transmits for the interface while it is served, and not once it is down, although the
client is still known there. -/
theorem silent_after_linkDown :
    let m := start.run service
    m.TransmitsFor .v6 1 ∧ (m.tracker .v6).Serves 1 ∧
      (m.take (operation (.notify linkDown))).v6.processor.relay.peers.get?
        V6.Relay.sharedAddress = some "eth0" ∧
      ¬ (m.take (operation (.notify linkDown))).TransmitsFor .v6 1 := by
  intro m
  have htransmits : m.v6.processor.relay.TransmitsFor V6.Relay.openNetwork m.v6.tracker
      (V6.Relay.solicitOn 1) 1 := by
    refine ⟨?_, rfl⟩
    decide +kernel
  obtain ⟨-, hgated, -, hwithdrawn⟩ := transmissions_gated service
  have hmain : Tracker.reach .v6 ((none : Option Cidr).map Cidr.address) ≠ .linkLocal := by decide
  have hdown : ¬ (Tracker.Need.link 1).Met ((m.take (operation (.notify linkDown))).tracker .v6) :=
    hwithdrawn .v6 _ _ (.down (e := linkDown) rfl rfl hmain rfl) _ _ _
  refine ⟨⟨_, _, htransmits⟩, (hgated _ _).serves htransmits, by decide +kernel, ?_⟩
  obtain ⟨-, -, hsilent, -⟩ := transmissions_gated (service ++ [operation (.notify linkDown)])
  exact hsilent .v6 (.link 1) hdown [] nofun 1 rfl

end RelayManager

end DhcpRelay
