import DhcpRelay.Proofs.Omission
import DhcpRelay.Proofs.V6.Peers

/-!
# Messages of clients on inactive interfaces

A DHCPv6 relay does not read the drops that it counts, so relays that differ in them only answer
every input alike and differ in them only afterwards (`Relay.AlikeBut.take`). A client's or another
relay's message on an interface that is not active is at most counted as a drop there
(`Relay.receive_fromInactive`), so a relay that takes it in stays alike to one that does not
(`Relay.AlikeBut.take_left`).
-/

namespace DhcpRelay.V6.Relay

/-! ## Inputs -/

/-- What a relay answers: the receipt of a datagram. -/
def answer (r : Relay) : Input → Option Receipt
  | .datagram net t d => some (r.receive net t d).1
  | .createInterface _ | .deleteInterface _ => none

namespace Input

/-- The name of the interface on which an input arrives. -/
def ingressName? : Input → Option String
  | datagram _ t d => Relay.ingressName? t d.ingress
  | createInterface _ | deleteInterface _ => none

/-- A client's or another relay's message on its way to the servers arrives on an interface that is
not active. -/
def FromInactive : Input → Prop
  | datagram _ t d => t.activeAt? d.ingress = none ∧ ∃ type, messageType? d.payload = some type ∧
      (type.isClientMessage = true ∨ type = .relayForward)
  | createInterface _ | deleteInterface _ => False

end Input

/-! ## Alike relays -/

/-- Relays are the same but for the drops on the interfaces whose names are in `S`, and for whether
these have a record. -/
structure AlikeBut (S : String → Prop) (r r' : Relay) : Prop where
  peers_eq : r.peers = r'.peers
  counters : r.counters.AlikeBut S r'.counters

/-- Results are the same but for those drops in the relay. -/
structure SameBut (S : String → Prop) (x x' : Receipt × Relay) : Prop where
  fst_eq : x.1 = x'.1
  snd : AlikeBut S x.2 x'.2

section
variable {S : String → Prop} {r r' : Relay} {net : Network} {t : Tracker} {d : Datagram}

theorem AlikeBut.refl (S : String → Prop) (r : Relay) : AlikeBut S r r := ⟨rfl, .refl S _⟩

namespace AlikeBut

/-! ### Counting -/

theorem drop (h : AlikeBut S r r') (name : String) (reason : DropReason) :
    SameBut S (r.drop name reason) (r'.drop name reason) :=
  ⟨rfl, h.peers_eq, h.counters.drop name⟩

theorem notePeer (h : AlikeBut S r r') (name : String) (peer : V6Address) :
    AlikeBut S (r.notePeer name peer) (r'.notePeer name peer) :=
  ⟨congrArg (·.insert peer name) h.peers_eq, h.counters.onInterface name fun _ => rfl⟩

theorem noteRequest (h : AlikeBut S r r') (client : String) (m : ClientMessage) :
    AlikeBut S (r.noteRequest client m) (r'.noteRequest client m) :=
  ⟨h.peers_eq, h.counters.onClient client _⟩

theorem noteReply (h : AlikeBut S r r') (name : String)
    (client : Option (String × ClientMessage)) :
    AlikeBut S (r.noteReply name client) (r'.noteReply name client) := by
  have hnoted := h.counters.onInterface name
    (f := fun i => { i with serverRx := i.serverRx + 1 }) fun _ => rfl
  cases client with
  | none => exact ⟨h.peers_eq, hnoted⟩
  | some client => exact ⟨h.peers_eq, hnoted.onClient client.1 _⟩

theorem noteSent {c c' : Counters Sightings} (h : c.AlikeBut S c') (name : String)
    (client : Option String) (servers : List String) :
    Counters.AlikeBut S (servers.foldl (Relay.noteSent name client) c)
      (servers.foldl (Relay.noteSent name client) c') := by
  refine h.foldl (fun c c' server h => ?_) servers
  cases client with
  | none => exact (h.onInterface name fun _ => rfl).onServer _ _ _
  | some client => exact ((h.onInterface name fun _ => rfl).onServer _ _ _).onClient _ _

theorem noteDelivered {c c' : Counters Sightings} (h : c.AlikeBut S c') (name : String)
    (client : Option String) (server : V6Address) :
    Counters.AlikeBut S (Relay.noteDelivered name client server c)
      (Relay.noteDelivered name client server c') := by
  cases client with
  | none => exact (h.onInterface name fun _ => rfl).onServer _ _ _
  | some client => exact ((h.onInterface name fun _ => rfl).onServer _ _ _).onClient _ _

/-! ### Datagrams -/

theorem sendUpstream (h : AlikeBut S r r') (net : Network) (t : Tracker) (a : ActiveInterface)
    (client : Option String) (payload : Bytes) :
    SameBut S (r.sendUpstream net t a client payload) (r'.sendUpstream net t a client payload) := by
  unfold Relay.sendUpstream
  dsimp only
  split
  · exact ⟨rfl, h.peers_eq, (noteSent h.counters a.property.name client _).drop _⟩
  · exact ⟨rfl, h.peers_eq, noteSent h.counters a.property.name client _⟩

theorem sendReply (h : AlikeBut S r r') (net : Network) (name : String) (index : Int)
    (server peer : V6Address) (client : Option String) (inner : Bytes) :
    SameBut S (r.sendReply net name index server peer client inner)
      (r'.sendReply net name index server peer client inner) := by
  unfold Relay.sendReply
  dsimp only
  split
  · exact ⟨rfl, h.peers_eq, noteDelivered h.counters name client server⟩
  · exact ⟨rfl, h.peers_eq, h.counters.drop name⟩

theorem relayClientMessage (h : AlikeBut S r r') (net : Network) (t : Tracker) (name : String)
    (d : Datagram) :
    SameBut S (r.relayClientMessage net t name d) (r'.relayClientMessage net t name d) := by
  unfold Relay.relayClientMessage
  split
  · exact h.drop name .notActive
  · next a _ =>
    split
    · exact ⟨rfl, h⟩
    · next m _ =>
      have hnoted := h.notePeer name d.source
      dsimp only
      cases m.ether?.map HardwareAddress.text with
      | none => exact hnoted.sendUpstream net t a none _
      | some client => exact (hnoted.noteRequest client m).sendUpstream net t a client _

theorem relayForward (h : AlikeBut S r r') (net : Network) (t : Tracker) (name : String)
    (d : Datagram) : SameBut S (r.relayForward net t name d) (r'.relayForward net t name d) := by
  unfold Relay.relayForward
  split
  · exact h.drop name .notActive
  · next a _ =>
    split
    · exact ⟨rfl, h⟩
    · next m _ =>
      have hnoted := h.notePeer name d.source
      dsimp only
      split
      · exact hnoted.drop name .hopLimit
      · exact hnoted.sendUpstream net t a none _

theorem relayReply (h : AlikeBut S r r') (net : Network) (t : Tracker) (d : Datagram) :
    SameBut S (r.relayReply net t d) (r'.relayReply net t d) := by
  unfold Relay.relayReply
  rw [h.peers_eq]
  split
  · exact ⟨rfl, h⟩
  · next m _ =>
    split
    · exact ⟨rfl, h⟩
    · exact ⟨rfl, h⟩
    · next inner _ _ =>
      cases r'.peers.get? m.peerAddress with
      | none => exact ⟨rfl, h⟩
      | some name =>
        have hnoted := h.noteReply name (replyClient? inner)
        dsimp only
        cases t.activeNamed? name with
        | none => exact hnoted.drop name .egressNotActive
        | some egress => exact hnoted.sendReply net name _ d.source m.peerAddress _ inner

theorem receive (h : AlikeBut S r r') (net : Network) (t : Tracker) (d : Datagram) :
    SameBut S (r.receive net t d) (r'.receive net t d) := by
  unfold Relay.receive
  split
  · next type name _ _ =>
    split
    · exact h.relayClientMessage net t name d
    · split
      · exact h.relayForward net t name d
      · exact h.relayReply net t d
      · exact ⟨rfl, h⟩
  · exact ⟨rfl, h⟩

/-- Alike relays answer every input alike and are alike afterwards. -/
theorem take (h : AlikeBut S r r') (i : Input) :
    r.answer i = r'.answer i ∧ AlikeBut S (r.take i) (r'.take i) := by
  cases i with
  | datagram net t d =>
    have hreceive := h.receive net t d
    exact ⟨congrArg some hreceive.fst_eq, hreceive.snd⟩
  | createInterface name => exact ⟨rfl, h.peers_eq, h.counters.createInterface name⟩
  | deleteInterface name => exact ⟨rfl, h.peers_eq, h.counters.deleteInterface name⟩

end AlikeBut

/-! ## Inactive interfaces -/

/-- A message on its way to the servers on an interface that is not active is ignored, if the
interface is unknown, or dropped there. -/
theorem receive_fromInactive (net : Network) (r : Relay)
    (hinactive : (Input.datagram net t d).FromInactive) :
    r.receive net t d = (⟨.ignored, []⟩, r) ∨ ∃ name,
      (Input.datagram net t d).ingressName? = some name ∧
        r.receive net t d = r.drop name .notActive := by
  obtain ⟨hactive, type, htype, hrequest⟩ := hinactive
  cases hname : ingressName? t d.ingress with
  | none =>
    refine .inl ?_
    unfold receive
    rw [hname]
    split <;> first | rfl | contradiction
  | some name =>
    refine .inr ⟨name, hname, ?_⟩
    have htype' : (d.payload.head? >>= MessageType.ofCode?) = some type := htype
    unfold receive
    simp only [htype', hname]
    obtain hclient | rfl := hrequest
    · rw [if_pos hclient]
      unfold relayClientMessage
      rw [hactive]
    · show r.relayForward net t name d = r.drop name .notActive
      unfold relayForward
      rw [hactive]

/-- A relay that takes in a message on its way to the servers on an interface that is not active
stays alike to one that does not. -/
theorem AlikeBut.take_left (h : AlikeBut S r r') {i : Input} (hinactive : i.FromInactive)
    (hname : ∀ name, i.ingressName? = some name → S name) : AlikeBut S (r.take i) r' := by
  cases i with
  | datagram net t d =>
    show AlikeBut S (r.receive net t d).2 r'
    obtain hignored | ⟨name, hingress, hdropped⟩ := receive_fromInactive net r hinactive
    · rw [hignored]
      exact h
    · rw [hdropped]
      exact ⟨h.peers_eq, h.counters.drop_left (hname name hingress)⟩
  | createInterface | deleteInterface => exact hinactive.elim

end

end DhcpRelay.V6.Relay
