import DhcpRelay.Proofs.Omission
import DhcpRelay.Proofs.Tracker.Activation
import DhcpRelay.Proofs.V4.Peers

/-!
# Messages of clients on inactive interfaces

A DHCPv4 relay does not read the drops that it counts, so relays that differ in them only answer
every input alike and differ in them only afterwards (`Relay.AlikeBut.take`). A client's message on
an interface that is not active is at most counted as a drop there (`Relay.receive_fromInactive`),
so a relay that takes it in stays alike to one that does not (`Relay.AlikeBut.take_left`).
-/

namespace DhcpRelay.V4.Relay

open Interface (Property)

/-! ## Inputs -/

/-- What a relay answers: the receipt of a datagram. -/
def answer (r : Relay) : Input → Option Receipt
  | .datagram net t d => some (r.receive net t d).1
  | .openLink .. | .closeLink .. | .closeLinks | .createInterface .. | .deleteInterface .. => none

namespace Input

/-- The name of the interface on which an input arrives. -/
def ingressName? : Input → Option String
  | datagram _ t d => (t.props.get? d.ingress).map (·.name)
  | openLink .. | closeLink .. | closeLinks | createInterface .. | deleteInterface .. => none

/-- A client's message arrives on an interface that is not active. The tracker is in a state that
operations lead to. -/
def FromInactive : Input → Prop
  | datagram _ t d => t.Reachable .v4 ∧ t.activeAt? d.ingress = none ∧ ∃ p type,
      Packet.parse d.payload = .ok p ∧ p.messageCode? = some (MessageType.code type) ∧
        type.isRequest = true
  | openLink .. | closeLink .. | closeLinks | createInterface .. | deleteInterface .. => False

end Input

/-! ## Alike relays -/

/-- Relays are the same but for the drops on the interfaces whose names are in `S`, and for whether
these have a record. -/
structure AlikeBut (S : String → Prop) (r r' : Relay) : Prop where
  peers_eq : r.peers = r'.peers
  counters : r.counters.AlikeBut S r'.counters
  handles_eq : r.handles = r'.handles
  openings_eq : r.openings = r'.openings

/-- Results are the same but for those drops in the relay. -/
structure SameBut {α : Type} (S : String → Prop) (x x' : α × Relay) : Prop where
  fst_eq : x.1 = x'.1
  snd : AlikeBut S x.2 x'.2

section
variable {S : String → Prop} {r r' : Relay} {net : Network} {t : Tracker} {d : Datagram}

theorem AlikeBut.refl (S : String → Prop) (r : Relay) : AlikeBut S r r := ⟨rfl, .refl S _, rfl, rfl⟩

namespace AlikeBut

/-! ### Handles -/

theorem openHandle (h : AlikeBut S r r') (net : Network) (name : String) (index : Int) :
    SameBut S (r.openHandle net name index) (r'.openHandle net name index) := by
  unfold Relay.openHandle
  rw [h.openings_eq, h.handles_eq]
  split
  · exact ⟨rfl, h.peers_eq, h.counters, rfl, rfl⟩
  · exact ⟨rfl, h.peers_eq, h.counters, rfl, rfl⟩

theorem openLink (h : AlikeBut S r r') (net : Network) (t : Tracker) (index : Int) :
    AlikeBut S (r.openLink net t index) (r'.openLink net t index) := by
  unfold Relay.openLink
  split
  · exact (h.openHandle net _ index).snd
  · exact h

theorem handle (h : AlikeBut S r r') (net : Network) (p : Property) :
    SameBut S (r.handle net p) (r'.handle net p) := by
  unfold Relay.handle
  rw [h.handles_eq]
  split
  · exact ⟨rfl, h⟩
  · exact h.openHandle net p.name p.index

/-! ### Counting -/

theorem drop (h : AlikeBut S r r') (name : String) (reason : DropReason) :
    SameBut S (r.drop name reason) (r'.drop name reason) :=
  ⟨rfl, { h with counters := h.counters.drop name }⟩

theorem noteRequest (h : AlikeBut S r r') (name : String) (type : MessageType) (p : Packet) :
    AlikeBut S (r.noteRequest name type p) (r'.noteRequest name type p) :=
  { h with
    peers_eq := congrArg (·.insert p.clientKey name) h.peers_eq
    counters := (h.counters.onInterface name fun _ => rfl).onClient _ _ }

theorem noteReply (h : AlikeBut S r r') (name : String) (type : MessageType) (p : Packet) :
    AlikeBut S (r.noteReply name type p) (r'.noteReply name type p) :=
  { h with counters := (h.counters.onInterface name fun _ => rfl).onClient _ _ }

theorem noteSent {c c' : Counters Sightings} (h : c.AlikeBut S c') (name client : String)
    (servers : List V4Address) :
    Counters.AlikeBut S (servers.foldl (Relay.noteSent name client) c)
      (servers.foldl (Relay.noteSent name client) c') := by
  refine h.foldl (fun c c' server h => ?_) servers
  exact ((h.onInterface name fun _ => rfl).onServer _ _ _).onClient _ _

theorem noteDelivered {c c' : Counters Sightings} (h : c.AlikeBut S c') (name client : String)
    (server : V4Address) :
    Counters.AlikeBut S (Relay.noteDelivered name client server c)
      (Relay.noteDelivered name client server c') :=
  ((h.onInterface name fun _ => rfl).onServer _ _ _).onClient _ _

/-! ### Datagrams -/

theorem sendToServers (h : AlikeBut S r r') (net : Network) (name client : String)
    (payload : Bytes) (servers : List V4Address) :
    SameBut S (r.sendToServers net name client payload servers)
      (r'.sendToServers net name client payload servers) := by
  unfold Relay.sendToServers
  dsimp only
  split
  · exact ⟨rfl, { h with counters := (noteSent h.counters name client _).drop name }⟩
  · exact ⟨rfl, { h with counters := noteSent h.counters name client _ }⟩

theorem sendReply (h : AlikeBut S r r') (net : Network) (name : String) (handle : Handle)
    (frame : Bytes) (server : V4Address) (p : Packet) :
    SameBut S (r.sendReply net name handle frame server p)
      (r'.sendReply net name handle frame server p) := by
  unfold Relay.sendReply
  split
  · exact ⟨rfl, { h with counters := noteDelivered h.counters name p.clientKey server }⟩
  · exact ⟨rfl, { h with counters := h.counters.drop name }⟩

theorem relayRequest (h : AlikeBut S r r') (net : Network) (t : Tracker) (ingress : Property)
    (type : MessageType) (p : Packet) :
    SameBut S (r.relayRequest net t ingress type p) (r'.relayRequest net t ingress type p) := by
  unfold Relay.relayRequest
  dsimp only
  split
  · exact h.drop ingress.name .notActive
  · split
    · exact h.drop ingress.name .noAddress
    · split
      · exact h.drop ingress.name .hopLimit
      · have hnoted := h.noteRequest ingress.name type p
        split
        · exact hnoted.drop ingress.name .missingServerId
        · exact hnoted.sendToServers net ingress.name p.clientKey _ _

theorem relayReply (h : AlikeBut S r r') (net : Network) (t : Tracker) (ingress : Property)
    (server : V4Address) (type : MessageType) (p : Packet) :
    SameBut S (r.relayReply net t ingress server type p)
      (r'.relayReply net t ingress server type p) := by
  unfold Relay.relayReply
  rw [h.peers_eq]
  cases r'.peers.get? p.clientKey with
  | none => exact ⟨rfl, h⟩
  | some name =>
    have hnoted := h.noteReply ingress.name type p
    dsimp only
    cases t.activeNamed? name with
    | none => exact hnoted.drop name .egressNotActive
    | some egress =>
      dsimp only
      cases egress.property.v4Address? with
      | none => exact hnoted.drop name .egressNoAddress
      | some source =>
        dsimp only
        -- both relays get the same handle, or both get none
        have hhandle := hnoted.handle net egress.property
        generalize (r.noteReply ingress.name type p).handle net egress.property = x at hhandle ⊢
        generalize (r'.noteReply ingress.name type p).handle net egress.property = x' at hhandle ⊢
        obtain ⟨handle?, r₁⟩ := x
        obtain ⟨handle?', r₁'⟩ := x'
        obtain ⟨rfl, hnext⟩ := hhandle
        cases handle? with
        | none => exact AlikeBut.drop hnext name .handleUnavailable
        | some handle => exact AlikeBut.sendReply hnext net name handle _ server p

theorem receive (h : AlikeBut S r r') (net : Network) (t : Tracker) (d : Datagram) :
    SameBut S (r.receive net t d) (r'.receive net t d) := by
  unfold Relay.receive
  split
  · next ingress p _ _ =>
    split
    · exact ⟨rfl, h⟩
    · next type _ =>
      split
      · exact h.relayRequest net t ingress type p
      · exact h.relayReply net t ingress d.source type p
  · exact ⟨rfl, h⟩

/-- Alike relays answer every input alike and are alike afterwards. -/
theorem take (h : AlikeBut S r r') (i : Input) :
    r.answer i = r'.answer i ∧ AlikeBut S (r.take i) (r'.take i) := by
  cases i with
  | datagram net t d =>
    have hreceive := h.receive net t d
    exact ⟨congrArg some hreceive.fst_eq, hreceive.snd⟩
  | openLink net t index => exact ⟨rfl, h.openLink net t index⟩
  | closeLink index =>
    exact ⟨rfl, { h with handles_eq := congrArg (·.erase index) h.handles_eq }⟩
  | closeLinks => exact ⟨rfl, { h with handles_eq := rfl }⟩
  | createInterface name => exact ⟨rfl, { h with counters := h.counters.createInterface name }⟩
  | deleteInterface name => exact ⟨rfl, { h with counters := h.counters.deleteInterface name }⟩

end AlikeBut

/-! ## Inactive interfaces -/

/-- A client's message on an interface that is not active is ignored, if the interface is unknown,
or dropped there. -/
theorem receive_fromInactive (net : Network) (r : Relay)
    (hinactive : (Input.datagram net t d).FromInactive) :
    r.receive net t d = (⟨.ignored, [], []⟩, r) ∨ ∃ name,
      (Input.datagram net t d).ingressName? = some name ∧
        r.receive net t d = r.drop name .notActive := by
  obtain ⟨ht, hactive, p, type, hparse, hcode, hrequest⟩ := hinactive
  cases hingress : t.props.get? d.ingress with
  | none =>
    refine .inl ?_
    unfold receive
    rw [hingress]
  | some ingress =>
    refine .inr ⟨ingress.name, by simp [Input.ingressName?, hingress], ?_⟩
    have hindex : ingress.index = d.ingress :=
      ht.wellFormed.props.index_eq d.ingress ingress hingress
    have htype : (p.messageCode? >>= MessageType.ofCode?) = some type := by
      rw [hcode]
      exact MessageType.ofCode?_code type
    unfold receive
    simp only [hingress, hparse, htype, hrequest, if_true]
    unfold relayRequest
    simp only [hindex, hactive]

/-- A relay that takes in a client's message on an interface that is not active stays alike to one
that does not. -/
theorem AlikeBut.take_left (h : AlikeBut S r r') {i : Input} (hinactive : i.FromInactive)
    (hname : ∀ name, i.ingressName? = some name → S name) : AlikeBut S (r.take i) r' := by
  cases i with
  | datagram net t d =>
    show AlikeBut S (r.receive net t d).2 r'
    obtain hignored | ⟨name, hingress, hdropped⟩ := receive_fromInactive net r hinactive
    · rw [hignored]
      exact h
    · rw [hdropped]
      exact { h with counters := h.counters.drop_left (hname name hingress) }
  | openLink | closeLink | closeLinks | createInterface | deleteInterface => exact hinactive.elim

end

end DhcpRelay.V4.Relay
