import DhcpRelay.Proofs.FanOut
import DhcpRelay.Proofs.V6.Journal

/-!
# Where a message is sent on its way to the servers

A client's message, and another relay's that has not passed too many relays, goes on in one relay
message (`Relay.GoesOn`), to every server whose text is an address and then to all servers on the
link of every upstream interface that has a link-local address, each in list order
(`Relay.FansOut`). What is tried does not depend on what succeeds; what succeeds decides the outcome
and what is counted, each success under the text of its own destination.
-/

namespace DhcpRelay

namespace V6.Relay

open Counters (Entry Enters Posts)

/-! ## Messages that go on -/

/-- A datagram that arrives on the active interface goes on as the given relay message: it is a
client's message or another relay's, can be read, and the other relay's has passed fewer relays than
the limit. -/
inductive GoesOn (t : Tracker) (d : Datagram) (a : ActiveInterface) : RelayMessage → Prop where
  | client {m : ClientMessage} (hactive : t.activeAt? d.ingress = some a)
      (hclient : isClientMessage d.payload) (hparse : ClientMessage.parse d.payload = .ok m) :
      GoesOn t d a (clientForward a d)
  | forward {m : RelayMessage} (hactive : t.activeAt? d.ingress = some a)
      (hforward : messageType? d.payload = some .relayForward)
      (hparse : RelayMessage.parse d.payload = .ok m) (hlimit : m.hopCount < t.hopLimit) :
      GoesOn t d a (relayedForward a m d)

/-! ## What is tried -/

/-- The servers whose text is an address. -/
def readable (servers : List String) : List String :=
  servers.filter fun text => (V6Address.parse? text).isSome

/-- The upstream interfaces that have a link-local address now. -/
def linked (t : Tracker) (upstreams : List String) : List String :=
  upstreams.filter fun name => (t.linkLocal.find? name).isSome

/-- The transmission goes to the server of the given text. -/
def ToServer (text : String) (x : Transmission) : Prop :=
  ∃ address, V6Address.parse? text = some address ∧ x.destination = ⟨address, 547, 0⟩

/-- The transmission goes to all servers on the link of the upstream interface. -/
def ToLink (t : Tracker) (name : String) (x : Transmission) : Prop :=
  ∃ p, t.linkLocal.find? name = some p ∧
    x.destination = ⟨.allRelayAgentsAndServers, 547, scopeOf p.index⟩

/-- The transmissions are one to each of the servers, in their order, and behind them one to the
link of each of the upstream interfaces, in theirs. -/
def Tries (t : Tracker) (servers upstreams : List String) (sent : List Transmission) : Prop :=
  ∃ toServers toLinks, sent = toServers ++ toLinks ∧ List.Forall₂ ToServer servers toServers ∧
    List.Forall₂ (ToLink t) upstreams toLinks

/-- The texts under which the transmissions are counted, in their order. -/
def labels (t : Tracker) (config : InterfaceConfig) : List String :=
  readable config.servers ++ (linked t config.upstreams).map ("ff02::1:2%" ++ ·)

/-- Octets are sent to all there is to send them to, each once, whatever succeeds. The outcome and
the counters are those of the successes: without any, the datagram is dropped and one drop more is
counted on the interface; every success is one request more on the record of its own destination. -/
structure FansOut (net : Network) (t : Tracker) (a : ActiveInterface) (payload : Bytes) (r : Relay)
    (result : Receipt × Relay) : Prop where
  tries : Tries t (readable a.config.servers) (linked t a.config.upstreams) result.1.sent
  payload_eq : ∀ x ∈ result.1.sent, x.payload = payload
  accepted_eq : ∀ n x, result.1.sent[n]? = some x → x.accepted = net.accepts n x.destination
  outcome_eq : result.1.outcome =
    if result.1.sent.countP (·.accepted) = 0 then .dropped .noServerReachable
    else .relayed (result.1.sent.countP (·.accepted))
  drops_eq (name : String) : result.2.counters.ofInterface name (·.drops) =
    r.counters.ofInterface name (·.drops) +
      if result.1.sent.countP (·.accepted) = 0 ∧ a.property.name = name then 1 else 0
  requests_eq (l : String) :
    result.2.counters.atKey (serverKey a.property.name l) (·.requests) =
      r.counters.atKey (serverKey a.property.name l) (·.requests) +
        (result.1.sent.zip (labels t a.config)).countP fun x => x.1.accepted && x.2 = l

section
variable {net : Network} {t : Tracker} {r r' : Relay} {d : Datagram} {a : ActiveInterface}
  {client : Option String} {payload : Bytes}

/-- Of what leads somewhere there is one text for each, in their order. -/
theorem map_snd_filterMap {α β δ ε : Type} (o : α → Option β) (g : α → β → δ) (text : α → ε)
    (xs : List α) : (xs.filterMap fun x => (o x).map fun y => (g x y, text x)).map (·.2) =
      (xs.filter fun x => (o x).isSome).map text := by
  induction xs with
  | nil => rfl
  | cons x xs ih => cases hx : o x <;> simp_all

/-- What is tried is a transmission for each destination, in their order. -/
theorem map_fst_attempts : (attempts net t a payload).map (·.1) =
    (destinations t a.config).mapIdx fun n x =>
      (⟨x.1, payload, net.accepts n x.1⟩ : Transmission) := by
  refine List.ext_getElem (by simp [attempts]) fun n h h' => ?_
  simp [attempts]

/-- What is tried is one transmission to each server and to the link of each upstream interface. -/
theorem tries_attempts : Tries t (readable a.config.servers) (linked t a.config.upstreams)
    ((attempts net t a payload).map (·.1)) := by
  rw [map_fst_attempts, destinations, List.mapIdx_append]
  refine ⟨_, _, rfl, forall₂_mapIdx_filterMap ?_ _, forall₂_mapIdx_filterMap ?_ _⟩
  · intro n text address haddress
    exact ⟨address, haddress, rfl⟩
  · intro n name p hp
    exact ⟨p, hp, rfl⟩

/-- The attempts stand under the texts of their destinations. -/
theorem map_snd_attempts_eq_labels : (attempts net t a payload).map (·.2) = labels t a.config := by
  have hgroup : V6Address.allRelayAgentsAndServers.text ++ "%" = "ff02::1:2%" := by decide +kernel
  rw [map_snd_attempts, destinations, List.map_append, hgroup, labels, readable, linked]
  refine congrArg₂ _ ((map_snd_filterMap _ _ id _).trans (List.map_id _)) ?_
  exact map_snd_filterMap _ _ ("ff02::1:2%" ++ ·) _

/-- The network decides every attempt by its place among the others and by its destination. -/
theorem accepted_of_getElem?_attempts {n : Nat} {x : Transmission}
    (h : ((attempts net t a payload).map (·.1))[n]? = some x) :
    x.accepted = net.accepts n x.destination := by
  rw [map_fst_attempts, List.getElem?_mapIdx] at h
  obtain ⟨y, -, rfl⟩ := Option.map_eq_some_iff.1 h
  rfl

/-- Nothing is reached exactly if no attempt succeeds. -/
theorem reached_eq_nil_iff : reached net t a payload = [] ↔
    ((attempts net t a payload).map (·.1)).countP (·.accepted) = 0 := by
  rw [← length_reached, List.length_eq_zero_iff]

/-! ## What is counted -/

/-- The entries of a message that is sent to the servers: its arrival, each success, and a drop if
there is none. -/
def upstreamEntries (net : Network) (t : Tracker) (a : ActiveInterface) (client : Option String)
    (payload : Bytes) : List Entry :=
  .requestReceived a.property.name client ::
    ((reached net t a payload).map fun text => .requestSent a.property.name text client) ++
      if reached net t a payload = [] then [.dropped a.property.name] else []

/-- They are what is counted of it. -/
theorem posts_sendUpstream
    (harrival : Enters (.requestReceived a.property.name client) r.counters r'.counters) :
    Posts (upstreamEntries net t a client payload) r.counters
      (r'.sendUpstream net t a client payload).2.counters := by
  have hsent := Posts.cons harrival
    (posts_noteSent r'.counters a.property.name client (reached net t a payload))
  rw [sendUpstream_eq, upstreamEntries]
  dsimp only
  by_cases hnone : reached net t a payload = []
  · rw [if_pos (List.isEmpty_iff.2 hnone), if_pos hnone]
    exact hsent.trans (Counters.enters_drop _ _).posts
  · rw [if_neg (mt List.isEmpty_iff.1 hnone), if_neg hnone, List.append_nil]
    exact hsent

/-- Among the entries there is one drop if nothing was reached, and otherwise none. -/
theorem countP_dropped_upstreamEntries (name : String) :
    (upstreamEntries net t a client payload).countP
      (fun e => e.activity = .dropped ∧ e.interface = name) =
        if reached net t a payload = [] ∧ a.property.name = name then 1 else 0 :=
  Entry.countP_dropped_sending name

/-- Among the entries there are as many requests under the key of a text as successes there. -/
theorem countP_requestSent_upstreamEntries (l : String) :
    (upstreamEntries net t a client payload).countP
      (fun e => e.activity = .requestSent ∧ e.key? = some (serverKey a.property.name l)) =
        (reached net t a payload).countP (· = l) := by
  refine (Entry.countP_sending fun e he => (of_decide_eq_true he).1).trans ?_
  refine List.countP_congr fun text _ => ?_
  simp [Entry.activity, Entry.key?, Entry.server?, Entry.interface, serverKey_right_inj]

/-- A message that is sent to the servers fans out. -/
theorem fansOut_sendUpstream
    (harrival : Enters (.requestReceived a.property.name client) r.counters r'.counters) :
    FansOut net t a payload r (r'.sendUpstream net t a client payload) := by
  have hposts : Posts (upstreamEntries net t a client payload) r.counters
      (r'.sendUpstream net t a client payload).2.counters := posts_sendUpstream harrival
  have hsent : (r'.sendUpstream net t a client payload).1.sent =
      (attempts net t a payload).map (·.1) := sent_sendUpstream r' client
  constructor
  · rw [hsent]
    exact tries_attempts
  · intro x hx
    exact payload_of_mem_sendUpstream hx
  · rw [hsent]
    intro n x hx
    exact accepted_of_getElem?_attempts hx
  · rw [hsent, ← length_reached, sendUpstream_eq]
    cases reached net t a payload <;> rfl
  · intro name
    rw [hsent]
    refine (hposts.ofInterface_eq .dropped name).trans (congrArg _ ?_)
    rw [countP_dropped_upstreamEntries]
    exact if_congr (and_congr_left' reached_eq_nil_iff) rfl rfl
  · intro l
    have hzip : ((attempts net t a payload).map (·.1)).zip (labels t a.config) =
        attempts net t a payload := by
      rw [← map_snd_attempts_eq_labels, List.zip_map']
      exact List.map_id _
    rw [hsent, hzip, ← countP_reached, ← countP_requestSent_upstreamEntries]
    exact hposts.atKey_eq .requestSent _

/-- What goes on arrived on the interface, which is active. -/
theorem GoesOn.activeAt?_eq {f : RelayMessage} (h : GoesOn t d a f) :
    t.activeAt? d.ingress = some a := by
  cases h with
  | client hactive => exact hactive
  | forward hactive => exact hactive

/-- A message that goes on fans out. -/
theorem GoesOn.fansOut {f : RelayMessage} (h : GoesOn t d a f) (net : Network) (r : Relay) :
    FansOut net t a f.encode r (r.receive net t d) := by
  cases h with
  | client hactive hclient hparse =>
    rw [receive_of_client hactive hclient hparse]
    exact fansOut_sendUpstream (enters_noteClient r a.property.name d.source _)
  | forward hactive hforward hparse hlimit =>
    rw [receive_of_forward hactive hforward hparse hlimit]
    exact fansOut_sendUpstream (enters_notePeer r a.property.name d.source)

end

end V6.Relay

end DhcpRelay
