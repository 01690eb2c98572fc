import Mathlib.Data.List.Induction
import DhcpRelay.Proofs.Address.Text
import DhcpRelay.Proofs.Counters
import DhcpRelay.Proofs.History
import DhcpRelay.Proofs.V6.Peers

/-!
# The journal of a DHCPv6 relay

Whatever becomes of a datagram, what is counted of it is a list of entries, and the entries say what
was sent of it, to whom, and whether it was delivered or dropped (`Relay.explains_receive`). So
every run has a journal (`Relay.exists_audit`).

A server is known by the text under which it is configured, by the address of a group with the name
of an upstream interface, or, where a reply comes from, by the text of an address. Each of these has
a colon and no underscore before it, and the names of interfaces have no colon. So the keys of
servers tell all pairs apart.
-/

namespace DhcpRelay

/-- No interface has a colon in its name. -/
def Tracker.PlainNames (t : Tracker) : Prop :=
  ∀ index p, t.props.get? index = some p → ':' ∉ p.name.toList

/-- An active interface has no colon in its name. -/
theorem Tracker.PlainNames.activeAt? {t : Tracker} (h : t.PlainNames) {i : Int}
    {a : ActiveInterface} (ha : t.activeAt? i = some a) : ':' ∉ a.property.name.toList := by
  simp only [Tracker.activeAt?, Option.bind_eq_bind, Option.bind_eq_some_iff, Option.pure_def,
    Option.some.injEq] at ha
  obtain ⟨c, -, p, hp, rfl⟩ := ha
  exact h i p hp

namespace V6.Relay

open Counters (Entry Enters Posts Book KeyBook ServerBook)

/-- No peer is known on an interface with a colon in its name. -/
def PlainPeers (r : Relay) : Prop :=
  ∀ peer name, r.peers.get? peer = some name → ':' ∉ name.toList

/-! ## What is observed -/

/-- Whether a datagram is a message that arrived on the interface called `name` on its way to the
servers. -/
def ArrivesOn (name : String) (t : Tracker) (d : Datagram) : Prop :=
  ingressName? t d.ingress = some name ∧ messageType? d.payload ≠ some .relayReply

instance (name : String) (t : Tracker) (d : Datagram) : Decidable (ArrivesOn name t d) :=
  inferInstanceAs (Decidable (_ ∧ _))

/-- The texts under which the destinations of a datagram are counted, in their order. -/
def serverTexts (t : Tracker) (d : Datagram) : List String :=
  ((t.activeAt? d.ingress).map fun a => (destinations t a.config).map (·.2)).getD []

/-- The transmissions that were accepted of a message that arrived on the interface called `name` on
its way to the servers. -/
def relayedOn (name : String) (t : Tracker) (d : Datagram) (receipt : Receipt) : Nat :=
  if ArrivesOn name t d then receipt.sent.countP (·.accepted) else 0

/-- Those of them that went to the server of the given text. -/
def relayedTo (name server : String) (t : Tracker) (d : Datagram) (receipt : Receipt) : Nat :=
  if ArrivesOn name t d then
    (receipt.sent.zip (serverTexts t d)).countP fun x => x.1.accepted && x.2 = server
  else 0

/-- Whether a reply was delivered on the interface called `name`. -/
def deliveredOn (name : String) (receipt : Receipt) : Nat :=
  if receipt.outcome = .delivered name then 1 else 0

/-- Whether a reply was delivered that came from the server with the given text. -/
def deliveredFrom (name server : String) (d : Datagram) (receipt : Receipt) : Nat :=
  if d.source.text = server then deliveredOn name receipt else 0

/-! ## Servers -/

/-- A text of a server on an interface, as it can be counted. -/
def CanCount (name server : String) : Prop := ':' ∉ name.toList ∧ ColonFirst server

theorem colonFirst_text (a : V6Address) : ColonFirst a.text :=
  .of_mem a.colon_mem_text a.underscore_notMem_text

/-- The text under which a destination is counted has a colon before any underscore. -/
theorem colonFirst_of_mem_destinations {t : Tracker} {config : InterfaceConfig}
    {x : Destination × String} (h : x ∈ destinations t config) : ColonFirst x.2 := by
  rcases List.mem_append.1 h with h | h
  · obtain ⟨server, -, hserver⟩ := List.mem_filterMap.1 h
    obtain ⟨a, ha, rfl⟩ := Option.map_eq_some_iff.1 hserver
    obtain ⟨hcolon, hchars⟩ := V6Address.of_parse? ha
    exact .of_mem hcolon fun hunder => absurd (hchars _ hunder) (by decide)
  · obtain ⟨name, -, hname⟩ := List.mem_filterMap.1 h
    obtain ⟨p, -, rfl⟩ := Option.map_eq_some_iff.1 hname
    exact ((colonFirst_text _).append "%").append name

/-! ## Sending to the servers -/

/-- The transmissions of a message to the servers, each with the text under which it is counted. -/
def attempts (net : Network) (t : Tracker) (a : ActiveInterface) (payload : Bytes) :
    List (Transmission × String) :=
  (destinations t a.config).mapIdx fun n x => (⟨x.1, payload, net.accepts n x.1⟩, x.2)

/-- The texts of the servers that were reached. -/
def reached (net : Network) (t : Tracker) (a : ActiveInterface) (payload : Bytes) : List String :=
  ((attempts net t a payload).filter (·.1.accepted)).map (·.2)

section
variable {net : Network} {t : Tracker} {a : ActiveInterface} {payload : Bytes}

/-- Sending to the servers in terms of what is attempted and what is reached. -/
theorem sendUpstream_eq (r : Relay) (client : Option String) :
    r.sendUpstream net t a client payload =
      let sent := (attempts net t a payload).map (·.1)
      let texts := reached net t a payload
      let r := { r with counters := texts.foldl (noteSent a.property.name client) r.counters }
      if texts.isEmpty then
        (⟨.dropped .noServerReachable, sent⟩, (r.drop a.property.name .noServerReachable).2)
      else (⟨.relayed texts.length, sent⟩, r) := rfl

/-- What is attempted is sent, whatever is reached. -/
theorem sent_sendUpstream (r : Relay) (client : Option String) :
    (r.sendUpstream net t a client payload).1.sent = (attempts net t a payload).map (·.1) := by
  rw [sendUpstream_eq]
  dsimp only
  split <;> rfl

/-- The transmissions come with the texts of all destinations. -/
theorem map_snd_attempts : (attempts net t a payload).map (·.2) =
    (destinations t a.config).map (·.2) := by
  refine List.ext_getElem (by simp [attempts]) fun n h h' => ?_
  simp [attempts]

/-- What is sent on the way from an active interface stands beside the texts of the servers. -/
theorem zip_serverTexts {d : Datagram} (hactive : t.activeAt? d.ingress = some a) :
    ((attempts net t a payload).map (·.1)).zip (serverTexts t d) = attempts net t a payload := by
  have htexts : serverTexts t d = (attempts net t a payload).map (·.2) := by
    rw [map_snd_attempts, serverTexts, hactive]
    rfl
  rw [htexts, List.zip_map']
  exact List.map_id _

/-- As many servers are reached as transmissions are accepted. -/
theorem length_reached : (reached net t a payload).length =
    ((attempts net t a payload).map (·.1)).countP (·.accepted) := by
  rw [reached, List.length_map, List.countP_map, List.countP_eq_length_filter]
  rfl

/-- A server is reached as often as transmissions with its text are accepted. -/
theorem countP_reached (server : String) : (reached net t a payload).countP (· = server) =
    (attempts net t a payload).countP fun x => x.1.accepted && x.2 = server := by
  rw [reached, List.countP_map, List.countP_filter]
  exact List.countP_congr fun x _ => by simp [and_comm]

theorem colonFirst_of_mem_reached {s : String} (h : s ∈ reached net t a payload) :
    ColonFirst s := by
  obtain ⟨x, hx, rfl⟩ := List.mem_map.1 h
  have htext : x.2 ∈ (destinations t a.config).map (·.2) := by
    rw [← map_snd_attempts]
    exact List.mem_map_of_mem (List.mem_filter.1 hx).1
  obtain ⟨y, hy, hxy⟩ := List.mem_map.1 htext
  exact hxy ▸ colonFirst_of_mem_destinations hy

end

/-! ## Entries -/

/-- The entries are those of a datagram. -/
structure Explains (t : Tracker) (r : Relay) (d : Datagram) (result : Receipt × Relay)
    (es : List Entry) : Prop where
  posts : Posts es r.counters result.2.counters
  names : ∀ e ∈ es, e.Names fun i s =>
    (t.PlainNames → r.PlainPeers → ':' ∉ i.toList) ∧ ColonFirst s
  replies : ∀ e ∈ es, e.activity = .replySent → ∃ a : V6Address, e.server? = some a.text
  relayed (name : String) : es.countP (fun e => e.activity = .requestSent ∧ e.interface = name) =
    relayedOn name t d result.1
  relayedTo (name server : String) : es.countP (fun e =>
    e.activity = .requestSent ∧ e.interface = name ∧ e.server? = some server) =
      relayedTo name server t d result.1
  delivered (name : String) : es.countP (fun e => e.activity = .replySent ∧ e.interface = name) =
    deliveredOn name result.1
  deliveredFrom (name server : String) : es.countP (fun e =>
    e.activity = .replySent ∧ e.interface = name ∧ e.server? = some server) =
      deliveredFrom name server d result.1
  drops : es.countP (fun e => e.activity = .dropped) = result.1.outcome.countedDrops .unknownPeer

section
variable {net : Network} {t : Tracker} {r r' : Relay} {d : Datagram} {es : List Entry}

theorem enters_notePeer (r : Relay) (name : String) (peer : V6Address) :
    Enters (.requestReceived name none) r.counters (r.notePeer name peer).counters :=
  Counters.enters_onInterface rfl rfl fun a _ => by cases a <;> rfl

theorem enters_noteClient (r : Relay) (name : String) (peer : V6Address) (m : ClientMessage) :
    Enters (.requestReceived name (m.ether?.map HardwareAddress.text)) r.counters
      (r.noteClient name peer m).counters := by
  unfold noteClient
  cases m.ether?.map HardwareAddress.text with
  | none => exact enters_notePeer r name peer
  | some client =>
    exact Counters.enters_received rfl (fun a _ => by cases a <;> rfl) fun a _ => by cases a <;> rfl

theorem enters_noteReply (r : Relay) (name : String) (client : Option (String × ClientMessage)) :
    Enters (.replyReceived name (client.map (·.1))) r.counters
      (r.noteReply name client).counters := by
  cases client with
  | none => exact Counters.enters_onInterface rfl rfl fun a _ => by cases a <;> rfl
  | some client =>
    exact Counters.enters_received rfl (fun a _ => by cases a <;> rfl) fun a _ => by cases a <;> rfl

theorem enters_noteSent (c : Counters Sightings) (name : String) (client : Option String)
    (server : String) :
    Enters (.requestSent name server client) c (noteSent name client c server) :=
  Counters.enters_sent rfl (fun a _ => by cases a <;> rfl) (fun a _ => by cases a <;> rfl)
    (fun a _ => by cases a <;> rfl) fun _ => ⟨rfl, rfl⟩

theorem enters_noteDelivered (c : Counters Sightings) (name : String) (client : Option String)
    (server : V6Address) :
    Enters (.replySent name server.text client) c (noteDelivered name client server c) :=
  Counters.enters_sent rfl (fun a _ => by cases a <;> rfl) (fun a _ => by cases a <;> rfl)
    (fun a _ => by cases a <;> rfl) fun _ => ⟨rfl, rfl⟩

/-- Messages that were sent to servers are entered one after another. -/
theorem posts_noteSent (c : Counters Sightings) (name : String) (client : Option String)
    (servers : List String) :
    Posts (servers.map fun s => .requestSent name s client) c
      (servers.foldl (noteSent name client) c) := by
  induction servers generalizing c with
  | nil => exact .nil c
  | cons s servers ih => exact .cons (enters_noteSent c name client s) (ih _)

/-- A datagram that is dropped, perhaps after it was counted as an arrival, and of which nothing was
sent with success. -/
theorem explains_refused (hes : Posts es r.counters r'.counters) (harrived : ∀ e ∈ es, e.IsArrival)
    (name : String) {reason : DropReason} (hreason : reason ≠ .unknownPeer)
    {sent : List Transmission} (hsent : ∀ x ∈ sent, x.accepted = false) :
    Explains t r d (⟨.dropped reason, sent⟩, (r'.drop name reason).2) (es ++ [.dropped name]) where
  posts := hes.trans (Counters.enters_drop _ name).posts
  names e he server hserver := by
    rcases List.mem_append.1 he with he | he
    · cases (harrived e he).server?_eq.symm.trans hserver
    · obtain rfl := List.mem_singleton.1 he
      cases hserver
  replies e he hreply := by
    rcases List.mem_append.1 he with he | he
    · rcases harrived e he with ha | ha <;> cases ha.symm.trans hreply
    · obtain rfl := List.mem_singleton.1 he
      cases hreply
  relayed other := by
    have hnone : sent.countP (·.accepted) = 0 := List.countP_eq_zero.2 (by simpa using hsent)
    rw [List.countP_append,
      Entry.countP_arrivals harrived fun e he => .inl (of_decide_eq_true he).1]
    simp [relayedOn, hnone, Entry.activity]
  relayedTo other server := by
    have hnone : (sent.zip (serverTexts t d)).countP (fun x => x.1.accepted && x.2 = server) = 0 :=
      List.countP_eq_zero.2 fun x hx => by simp [hsent x.1 (List.of_mem_zip hx).1]
    rw [List.countP_append,
      Entry.countP_arrivals harrived fun e he => .inl (of_decide_eq_true he).1]
    simp [Relay.relayedTo, hnone, Entry.activity]
  delivered other := by
    rw [List.countP_append,
      Entry.countP_arrivals harrived fun e he => .inr (.inl (of_decide_eq_true he).1)]
    simp [deliveredOn, Entry.activity]
  deliveredFrom other server := by
    rw [List.countP_append,
      Entry.countP_arrivals harrived fun e he => .inr (.inl (of_decide_eq_true he).1)]
    simp [Relay.deliveredFrom, deliveredOn, Entry.activity]
  drops := by
    rw [List.countP_append,
      Entry.countP_arrivals harrived fun e he => .inr (.inr (of_decide_eq_true he))]
    simp [Outcome.countedDrops, hreason, Entry.activity]

/-- A datagram that is dropped before anything is sent. -/
theorem explains_drop (hes : Posts es r.counters r'.counters) (harrived : ∀ e ∈ es, e.IsArrival)
    (name : String) {reason : DropReason} (hreason : reason ≠ .unknownPeer) :
    Explains t r d (r'.drop name reason) (es ++ [.dropped name]) :=
  explains_refused hes harrived name hreason fun _ hx => absurd hx List.not_mem_nil

/-- A datagram of which nothing is counted. -/
theorem explains_nothing {outcome : Outcome} (hdrops : outcome.countedDrops .unknownPeer = 0)
    (hdelivered : ∀ name, outcome ≠ .delivered name) : Explains t r d (⟨outcome, []⟩, r) [] where
  posts := .nil _
  names := nofun
  replies := nofun
  relayed _ := by simp [relayedOn]
  relayedTo _ _ := by simp [Relay.relayedTo]
  delivered name := by simp [deliveredOn, hdelivered name]
  deliveredFrom name _ := by simp [Relay.deliveredFrom, deliveredOn, hdelivered name]
  drops := hdrops.symm

/-- A message on its way to the servers arrives on the interface that is active. -/
theorem arrivesOn_iff {a : ActiveInterface} (hactive : t.activeAt? d.ingress = some a)
    (hmessage : messageType? d.payload ≠ some .relayReply) (name : String) :
    ArrivesOn name t d ↔ a.property.name = name := by
  simp [ArrivesOn, ingressName?_of_activeAt? hactive, hmessage]

/-- A message that is sent to the servers is entered as an arrival and once for each destination
that was reached, and as a drop if none was. -/
theorem explains_sendUpstream {a : ActiveInterface} {client : Option String}
    (hactive : t.activeAt? d.ingress = some a)
    (hmessage : messageType? d.payload ≠ some .relayReply)
    (harrival : Enters (.requestReceived a.property.name client) r.counters r'.counters)
    (payload : Bytes) :
    ∃ es, Explains t r d (r'.sendUpstream net t a client payload) es := by
  have harrives := arrivesOn_iff hactive hmessage
  rw [sendUpstream_eq]
  dsimp only
  split
  · next hempty =>
    have hnone : reached net t a payload = [] := List.isEmpty_iff.1 hempty
    rw [hnone, List.foldl_nil]
    refine ⟨_, explains_refused harrival.posts (List.forall_mem_singleton.2 (.inl rfl))
      a.property.name (by decide) fun x hx => ?_⟩
    obtain ⟨y, hy, rfl⟩ := List.mem_map.1 hx
    have hfilter := List.map_eq_nil_iff.1 hnone
    exact Bool.eq_false_iff.2 (List.filter_eq_nil_iff.1 hfilter y hy)
  · refine ⟨.requestReceived a.property.name client ::
      (reached net t a payload).map fun s => .requestSent a.property.name s client,
      .cons harrival (posts_noteSent _ _ _ _), fun e he => ?_, fun e he hreply => ?_,
      fun name => ?_, fun name server => ?_, fun name => ?_, fun name server => ?_, ?_⟩
    · rcases List.mem_cons.1 he with rfl | he
      · exact nofun
      · obtain ⟨s, hs, rfl⟩ := List.mem_map.1 he
        rintro _ ⟨⟩
        exact ⟨fun ht _ => ht.activeAt? hactive, colonFirst_of_mem_reached hs⟩
    · rcases List.mem_cons.1 he with rfl | he
      · cases hreply
      · obtain ⟨s, -, rfl⟩ := List.mem_map.1 he
        cases hreply
    · rw [List.countP_cons, Entry.countP_requestSent, relayedOn, length_reached]
      simp [harrives, Entry.activity]
    · rw [List.countP_cons, Entry.countP_requestSent_to, relayedTo, zip_serverTexts hactive,
        countP_reached]
      simp [harrives, Entry.activity]
    · simp [deliveredOn, Entry.activity, List.countP_eq_zero]
    · simp [deliveredFrom, deliveredOn, Entry.activity, List.countP_eq_zero]
    · simp [Outcome.countedDrops, Entry.activity, List.countP_eq_zero]

/-- A reply to a known peer is entered as an arrival, and as delivered or dropped. -/
theorem explains_sendReply (hreply : messageType? d.payload = some .relayReply)
    {peer : V6Address} {name : String} {client : Option String}
    (hpeer : r.peers.get? peer = some name)
    (harrival : Enters (.replyReceived name client) r.counters r'.counters) (index : Int)
    (inner : Bytes) :
    ∃ es, Explains t r d (r'.sendReply net name index d.source peer client inner) es := by
  have harrives : ∀ other, ¬ ArrivesOn other t d := fun other h => h.2 hreply
  unfold sendReply
  dsimp only
  split
  · refine ⟨[.replyReceived name client, .replySent name d.source.text client],
      .cons harrival (enters_noteDelivered _ name client d.source).posts, ?_, ?_, fun other => ?_,
      fun other server => ?_, fun other => ?_, fun other server => ?_, ?_⟩
    · simp only [List.forall_mem_cons, List.not_mem_nil, false_imp_iff, implies_true, and_true]
      refine ⟨nofun, ?_⟩
      rintro _ ⟨⟩
      exact ⟨fun _ hr => hr peer name hpeer, colonFirst_text d.source⟩
    · simp only [List.forall_mem_cons, List.not_mem_nil, false_imp_iff, implies_true, and_true]
      exact ⟨nofun, fun _ => ⟨d.source, rfl⟩⟩
    · simp [relayedOn, harrives, Entry.activity]
    · simp [relayedTo, harrives, Entry.activity]
    · simp [deliveredOn, Entry.activity, Entry.interface]
    · by_cases hserver : d.source.text = server <;>
        simp [deliveredFrom, deliveredOn, Entry.activity, Entry.interface, Entry.server?, hserver]
    · simp [Outcome.countedDrops, Entry.activity]
  · exact ⟨_, explains_refused harrival.posts (List.forall_mem_singleton.2 (.inr rfl)) name
      (by decide) (List.forall_mem_singleton.2 rfl)⟩

/-- Whatever becomes of a datagram, there are entries of it. -/
theorem explains_receive (net : Network) (t : Tracker) (r : Relay) (d : Datagram) :
    ∃ es, Explains t r d (r.receive net t d) es := by
  have hend := handled_receive net t r d
  generalize r.receive net t d = result at hend
  cases hend with
  | ignored | unknownPeer => exact ⟨[], explains_nothing rfl nofun⟩
  | @notActive name => exact ⟨_, explains_drop (.nil _) nofun name (by decide)⟩
  | client hactive hclient hparse =>
    refine explains_sendUpstream hactive (fun hreply => ?_) (enters_noteClient _ _ _ _) _
    simp [isClientMessage, hreply, MessageType.isClientMessage] at hclient
  | @hopLimit a m hactive =>
    exact ⟨_, explains_drop (enters_notePeer r a.property.name d.source).posts
      (List.forall_mem_singleton.2 (.inl rfl)) a.property.name (by decide)⟩
  | forward hactive hforward hparse hlimit =>
    refine explains_sendUpstream hactive (fun hreply => ?_) (enters_notePeer _ _ _) _
    cases hforward.symm.trans hreply
  | @egressNotActive m inner name hreply hpeer hegress =>
    exact ⟨_, explains_drop (enters_noteReply r name (replyClient? inner)).posts
      (List.forall_mem_singleton.2 (.inr rfl)) name (by decide)⟩
  | reply hreply hpeer hegress =>
    exact explains_sendReply hreply.type_eq hpeer (enters_noteReply _ _ _) _ _

end

/-! ## Runs -/

namespace Input

/-- The messages that servers were sent, if they arrived on the interface called `name`. -/
def relayedOn (name : String) (r : Relay) : Input → Nat
  | datagram net t d => Relay.relayedOn name t d (r.receive net t d).1
  | createInterface .. | deleteInterface .. => 0

/-- The messages that the server with the given text was sent, if they arrived on the interface
called `name`. -/
def relayedTo (name server : String) (r : Relay) : Input → Nat
  | datagram net t d => Relay.relayedTo name server t d (r.receive net t d).1
  | createInterface .. | deleteInterface .. => 0

/-- Whether a reply was delivered on the interface called `name`. -/
def deliveredOn (name : String) (r : Relay) : Input → Nat
  | datagram net t d => Relay.deliveredOn name (r.receive net t d).1
  | createInterface .. | deleteInterface .. => 0

/-- Whether a reply from the server with the given text was delivered on the interface called
`name`. -/
def deliveredFrom (name server : String) (r : Relay) : Input → Nat
  | datagram net t d => Relay.deliveredFrom name server d (r.receive net t d).1
  | createInterface .. | deleteInterface .. => 0

/-- Whether a datagram was dropped for a reason other than an unknown peer. -/
def drops (r : Relay) : Input → Nat
  | datagram net t d => (r.receive net t d).1.outcome.countedDrops .unknownPeer
  | createInterface .. | deleteInterface .. => 0

/-- A datagram arrives while no interface has a colon in its name. -/
def Plain : Input → Prop
  | datagram _ t _ => t.PlainNames
  | createInterface .. | deleteInterface .. => True

end Input

/-- The sum over a run of a new relay of what each input counts. -/
def tally (count : Relay → Input → Nat) (ins : List Input) : Nat := History.tally take count {} ins

/-- One input more adds what it counts after the others. -/
theorem tally_append (count : Relay → Input → Nat) (ins : List Input) (i : Input) :
    tally count (ins ++ [i]) = tally count ins + count (({} : Relay).run ins) i :=
  History.tally_append_singleton _ ins i

section
variable {net : Network} {t : Tracker} {d : Datagram} {es journal : List Entry} {ins : List Input}
  {i : Input}

/-- Peers have been seen on interfaces without a colon in their names. -/
theorem plainPeers_run (h : ∀ i ∈ ins, i.Plain) : (({} : Relay).run ins).PlainPeers := by
  intro peer name hpeer
  rw [get?_peers_run] at hpeer
  obtain ⟨i, hi, hshows⟩ : ∃ i ∈ ins, i.shows? peer = some name := by
    have hlast : lastSeen? peer ins = some name := by simpa using hpeer
    obtain ⟨i, hi, hshows⟩ := List.exists_of_findSome?_eq_some hlast
    exact ⟨i, List.mem_reverse.1 hi, hshows⟩
  cases i with
  | datagram net t d =>
    rw [Input.shows?] at hshows
    split at hshows
    · unfold sighting? at hshows
      split at hshows
      · obtain ⟨a, ha, rfl⟩ := Option.map_eq_some_iff.1 hshows
        exact (h _ hi : t.PlainNames).activeAt? ha
      · cases hshows
    · cases hshows
  | createInterface | deleteInterface => cases hshows

/-- The journal of a run of a new relay. The numbers of interfaces and clients are kept only as long
as no record of an interface is deleted, and those of all servers of an interface are sums of
records that are its own if no interface has a colon in its name. -/
structure Audit (ins : List Input) (journal : List Entry) : Prop where
  book (h : ∀ name, .deleteInterface name ∉ ins) : Book journal (({} : Relay).run ins).counters
  keys : KeyBook journal (({} : Relay).run ins).counters
  servers (h : ∀ i ∈ ins, i.Plain) : ServerBook CanCount journal (({} : Relay).run ins).counters
  names : ∀ e ∈ journal, e.Names fun _ s => ColonFirst s
  replies : ∀ e ∈ journal, e.activity = .replySent → ∃ a : V6Address, e.server? = some a.text
  relayed (name : String) :
    journal.countP (fun e => e.activity = .requestSent ∧ e.interface = name) =
      tally (Input.relayedOn name) ins
  relayedTo (name server : String) : journal.countP (fun e =>
    e.activity = .requestSent ∧ e.interface = name ∧ e.server? = some server) =
      tally (Input.relayedTo name server) ins
  delivered (name : String) :
    journal.countP (fun e => e.activity = .replySent ∧ e.interface = name) =
      tally (Input.deliveredOn name) ins
  deliveredFrom (name server : String) : journal.countP (fun e =>
    e.activity = .replySent ∧ e.interface = name ∧ e.server? = some server) =
      tally (Input.deliveredFrom name server) ins
  drops : journal.countP (fun e => e.activity = .dropped) = tally Input.drops ins

/-- The entries of a datagram follow on the journal. -/
theorem Audit.receive (h : Audit ins journal)
    (hes : Explains t (({} : Relay).run ins) d ((({} : Relay).run ins).receive net t d) es) :
    Audit (ins ++ [.datagram net t d]) (journal ++ es) := by
  refine ⟨fun hkept => ?_, ?_, fun hplain => ?_, ?_, ?_, fun name => ?_, fun name server => ?_,
    fun name => ?_, fun name server => ?_, ?_⟩
  · rw [run, List.foldl_append]
    exact (h.book fun name hmem => hkept name (List.mem_append_left _ hmem)).posts hes.posts
  · rw [run, List.foldl_append]
    exact h.keys.posts hes.posts
  · obtain ⟨hins, hi⟩ := List.forall_mem_append.1 hplain
    have ht : t.PlainNames := hi _ (List.mem_singleton_self _)
    rw [run, List.foldl_append]
    refine (h.servers hins).posts separates_of_colonFirst (fun e he server hserver => ?_) hes.posts
    obtain ⟨hname, htext⟩ := hes.names e he server hserver
    exact ⟨hname ht (plainPeers_run hins), htext⟩
  · exact List.forall_mem_append.2 ⟨h.names, fun e he server hserver =>
      (hes.names e he server hserver).2⟩
  · exact List.forall_mem_append.2 ⟨h.replies, hes.replies⟩
  · rw [List.countP_append, h.relayed, hes.relayed, tally_append]
    rfl
  · rw [List.countP_append, h.relayedTo, hes.relayedTo, tally_append]
    rfl
  · rw [List.countP_append, h.delivered, hes.delivered, tally_append]
    rfl
  · rw [List.countP_append, h.deliveredFrom, hes.deliveredFrom, tally_append]
    rfl
  · rw [List.countP_append, h.drops, hes.drops, tally_append]
    rfl

/-- An input of which nothing is counted leaves the journal as it is. -/
theorem Audit.skip (h : Audit ins journal)
    (hbook : (∀ name, .deleteInterface name ∉ ins ++ [i]) →
      Book journal ((({} : Relay).run ins).take i).counters)
    (hservers : ((({} : Relay).run ins).take i).counters.servers =
      (({} : Relay).run ins).counters.servers)
    (hnothing : ∀ name server r, i.relayedOn name r = 0 ∧ i.relayedTo name server r = 0 ∧
      i.deliveredOn name r = 0 ∧ i.deliveredFrom name server r = 0 ∧ i.drops r = 0) :
    Audit (ins ++ [i]) journal := by
  refine ⟨fun hkept => ?_, ?_, fun hplain => ?_, h.names, h.replies, fun name => ?_,
    fun name server => ?_, fun name => ?_, fun name server => ?_, ?_⟩
  · rw [run, List.foldl_append]
    exact hbook hkept
  · rw [run, List.foldl_append]
    exact h.keys.congr hservers
  · rw [run, List.foldl_append]
    exact (h.servers (List.forall_mem_append.1 hplain).1).congr hservers
  · rw [h.relayed, tally_append, (hnothing name "" _).1, Nat.add_zero]
  · rw [h.relayedTo, tally_append, (hnothing name server _).2.1, Nat.add_zero]
  · rw [h.delivered, tally_append, (hnothing name "" _).2.2.1, Nat.add_zero]
  · rw [h.deliveredFrom, tally_append, (hnothing name server _).2.2.2.1, Nat.add_zero]
  · rw [h.drops, tally_append, (hnothing "" "" _).2.2.2.2, Nat.add_zero]

/-- Every run has a journal. -/
theorem exists_audit (ins : List Input) : ∃ journal, Audit ins journal := by
  induction ins using List.reverseRecOn with
  | nil =>
    exact ⟨[], fun _ => .empty, .empty, fun _ => .empty, nofun, nofun, fun _ => rfl,
      fun _ _ => rfl, fun _ => rfl, fun _ _ => rfl, rfl⟩
  | append_singleton ins i ih =>
    obtain ⟨journal, hjournal⟩ := ih
    cases i with
    | datagram net t d =>
      obtain ⟨es, hes⟩ := explains_receive net t (({} : Relay).run ins) d
      exact ⟨_, hjournal.receive hes⟩
    | createInterface name =>
      refine ⟨journal, hjournal.skip (fun hkept => ?_) rfl fun _ _ _ => ⟨rfl, rfl, rfl, rfl, rfl⟩⟩
      have hbook := hjournal.book fun other hmem => hkept other (List.mem_append_left _ hmem)
      exact hbook.createInterface name
    | deleteInterface name =>
      refine ⟨journal, hjournal.skip (fun hkept => ?_) rfl fun _ _ _ => ⟨rfl, rfl, rfl, rfl, rfl⟩⟩
      exact absurd (List.mem_append_right _ (List.mem_singleton_self _)) (hkept name)

end

end V6.Relay

end DhcpRelay
