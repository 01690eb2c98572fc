import DhcpRelay.Proofs.Address.Text
import DhcpRelay.Proofs.Counters
import DhcpRelay.Proofs.Tracker.Activation
import DhcpRelay.Proofs.V4.Delivery
import DhcpRelay.Proofs.V4.Links

/-!
# The DHCPv4 counters balance

Whatever becomes of a datagram, what is counted of it is a list of entries, and the entries say how
many transmissions and frames were accepted and whether it was dropped (`Relay.explains_receive`).
So every run has a journal (`Relay.exists_audit`), and the three tables, which follow from it, agree
with each other and with what was sent (`Relay.counters_balance`).

A server's text has no underscore, so the keys of servers tell all pairs apart, also on interfaces
whose names have underscores. A frame belongs to the interface whose handle it goes through, and
since handles are apart there is one such interface.
-/

namespace DhcpRelay.V4.Relay

open Interface (Property)
open Counters (Entry Enters Posts Book ServerBook)

/-! ## What is observed -/

/-- The transmissions that were accepted of a datagram, if it arrived on the interface called
`name`. -/
def relayedOn (name : String) (t : Tracker) (d : Datagram) (receipt : Receipt) : Nat :=
  if (t.props.get? d.ingress).map (·.name) = some name then receipt.sent.countP (·.accepted) else 0

/-- The frames that were accepted through the handle that the relay holds for the interface called
`name`. -/
def framesOn (name : String) (t : Tracker) (result : Receipt × Relay) : Nat :=
  result.1.frames.countP fun f =>
    f.accepted && (t.props.index? name).bind result.2.handles.get? = some f.handle

namespace Input

/-- The datagrams that servers were sent of a request, if it arrived on the interface called
`name`. -/
def relayedOn (name : String) (r : Relay) : Input → Nat
  | datagram net t d => Relay.relayedOn name t d (r.receive net t d).1
  | openLink .. | closeLink .. | closeLinks | createInterface .. | deleteInterface .. => 0

/-- The frames that were sent on the interface called `name`. -/
def framesOn (name : String) (r : Relay) : Input → Nat
  | datagram net t d => Relay.framesOn name t (r.receive net t d)
  | openLink .. | closeLink .. | closeLinks | createInterface .. | deleteInterface .. => 0

/-- Whether a datagram was dropped for a reason other than an unknown client. -/
def drops (r : Relay) : Input → Nat
  | datagram net t d => (r.receive net t d).1.outcome.countedDrops .unknownClient
  | openLink .. | closeLink .. | closeLinks | createInterface .. | deleteInterface .. => 0

/-- A datagram arrives while the tracker is in a state that operations lead to, and no record of an
interface is deleted. -/
def Regular : Input → Prop
  | datagram _ t _ => t.Reachable .v4
  | deleteInterface _ => False
  | openLink .. | closeLink .. | closeLinks | createInterface .. => True

end Input

/-- The sum over a run of a new relay of what each input counts. -/
def tally (count : Relay → Input → Nat) (ins : List Input) : Nat := History.tally take count {} ins

/-- One input more adds what it counts after the others. -/
theorem tally_append (count : Relay → Input → Nat) (ins : List Input) (i : Input) :
    tally count (ins ++ [i]) = tally count ins + count (({} : Relay).run ins) i :=
  History.tally_append_singleton _ ins i

/-! ## What is attempted and what is reached -/

/-- What is attempted: a transmission to each server. -/
def attempts (net : Network) (payload : Bytes) (servers : List V4Address) : List Transmission :=
  servers.mapIdx (attempt net payload)

/-- The servers that are reached. -/
def reached (sent : List Transmission) : List V4Address :=
  (sent.filter (·.accepted)).map (·.destination.address)

/-- Sending to servers in terms of what is attempted and what is reached. -/
theorem sendToServers_eq (net : Network) (r : Relay) (name client : String) (payload : Bytes)
    (servers : List V4Address) :
    r.sendToServers net name client payload servers =
      let sent := attempts net payload servers
      let r := { r with counters := (reached sent).foldl (noteSent name client) r.counters }
      if (reached sent).isEmpty then
        (⟨.dropped .noServerReachable, sent, []⟩, (r.drop name .noServerReachable).2)
      else (⟨.relayed (reached sent).length, sent, []⟩, r) := rfl

/-- As many servers are reached as transmissions are accepted. -/
theorem length_reached (sent : List Transmission) :
    (reached sent).length = sent.countP (·.accepted) := by
  rw [reached, List.length_map, List.countP_eq_length_filter]

/-! ## Entries -/

/-- The entries are those of a datagram. -/
structure Explains (t : Tracker) (r : Relay) (d : Datagram) (result : Receipt × Relay)
    (es : List Entry) : Prop where
  posts : Posts es r.counters result.2.counters
  names : ∀ e ∈ es, e.Names fun _ server => '_' ∉ server.toList
  client : ∀ e ∈ es, e.activity ≠ .dropped → e.client?.isSome = true
  relayed (name : String) : es.countP (fun e => e.activity = .requestSent ∧ e.interface = name) =
    relayedOn name t d result.1
  framed (name : String) : es.countP (fun e => e.activity = .replySent ∧ e.interface = name) =
    framesOn name t result
  drops : es.countP (fun e => e.activity = .dropped) =
    result.1.outcome.countedDrops .unknownClient

section
variable {net : Network} {t : Tracker} {r r' : Relay} {d : Datagram} {es : List Entry}

theorem enters_noteRequest (r : Relay) (name : String) (type : MessageType) (p : Packet) :
    Enters (.requestReceived name (some p.clientKey)) r.counters
      (r.noteRequest name type p).counters :=
  Counters.enters_received rfl (fun a _ => by cases a <;> rfl) fun a _ => by cases a <;> rfl

theorem enters_noteReply (r : Relay) (name : String) (type : MessageType) (p : Packet) :
    Enters (.replyReceived name (some p.clientKey)) r.counters
      (r.noteReply name type p).counters :=
  Counters.enters_received rfl (fun a _ => by cases a <;> rfl) fun a _ => by cases a <;> rfl

theorem enters_noteSent (c : Counters Sightings) (name client : String) (server : V4Address) :
    Enters (.requestSent name server.text (some client)) c (noteSent name client c server) :=
  Counters.enters_sent rfl (fun a _ => by cases a <;> rfl) (fun a _ => by cases a <;> rfl)
    (fun a _ => by cases a <;> rfl) fun _ => ⟨rfl, rfl⟩

theorem enters_noteDelivered (c : Counters Sightings) (name client : String) (server : V4Address) :
    Enters (.replySent name server.text (some client)) c (noteDelivered name client server c) :=
  Counters.enters_sent rfl (fun a _ => by cases a <;> rfl) (fun a _ => by cases a <;> rfl)
    (fun a _ => by cases a <;> rfl) fun _ => ⟨rfl, rfl⟩

@[simp] theorem counters_openHandle (name : String) (index : Int) :
    (r.openHandle net name index).2.counters = r.counters := by
  unfold openHandle
  split <;> rfl

@[simp] theorem counters_openLink (index : Int) :
    (r.openLink net t index).counters = r.counters := by
  unfold openLink
  split
  · exact counters_openHandle _ _
  · rfl

@[simp] theorem counters_handle (egress : Property) :
    (r.handle net egress).2.counters = r.counters := by
  unfold handle
  split
  · rfl
  · exact counters_openHandle _ _

/-- Looking for a handle counts nothing. -/
theorem counters_of_handle_eq {x : Option Handle} {egress : Property}
    (h : r.handle net egress = (x, r')) : r'.counters = r.counters :=
  (congrArg (·.2.counters) h).symm.trans (counters_handle egress)

/-- A reply is entered as an arrival before its handle is looked for. -/
theorem enters_of_handle_eq {ingress : String} {type : MessageType} {p : Packet}
    {x : Option Handle} {egress : Property}
    (h : (r.noteReply ingress type p).handle net egress = (x, r')) :
    Enters (.replyReceived ingress (some p.clientKey)) r.counters r'.counters := by
  rw [counters_of_handle_eq h]
  exact enters_noteReply r ingress type p

/-- Requests that were sent to servers are entered one after another. -/
theorem posts_noteSent (c : Counters Sightings) (name client : String) (servers : List V4Address) :
    Posts (servers.map fun s => .requestSent name s.text (some client)) c
      (servers.foldl (noteSent name client) c) := by
  induction servers generalizing c with
  | nil => exact .nil c
  | cons s servers ih => exact .cons (enters_noteSent c name client s) (ih _)

/-- A datagram that is dropped, perhaps after it was counted as an arrival, and of which nothing was
sent with success. -/
theorem explains_refused (hes : Posts es r.counters r'.counters) (harrived : ∀ e ∈ es, e.IsArrival)
    (hclient : ∀ e ∈ es, e.client?.isSome = true) (name : String) {reason : DropReason}
    (hreason : reason ≠ .unknownClient) {sent : List Transmission}
    (hsent : ∀ x ∈ sent, x.accepted = false) {frames : List FrameTransmission}
    (hframes : ∀ f ∈ frames, f.accepted = false) :
    Explains t r d (⟨.dropped reason, sent, frames⟩, (r'.drop name reason).2)
      (es ++ [.dropped name]) where
  posts := hes.trans (Counters.enters_drop _ name).posts
  names e he server hserver := by
    rcases List.mem_append.1 he with he | he
    · cases (harrived e he).server?_eq.symm.trans hserver
    · obtain rfl := List.mem_singleton.1 he
      cases hserver
  client e he hdropped := by
    rcases List.mem_append.1 he with he | he
    · exact hclient e he
    · obtain rfl := List.mem_singleton.1 he
      exact absurd rfl hdropped
  relayed other := by
    have hnone : sent.countP (·.accepted) = 0 := List.countP_eq_zero.2 (by simpa using hsent)
    rw [List.countP_append,
      Entry.countP_arrivals harrived fun e he => .inl (of_decide_eq_true he).1]
    simp [relayedOn, hnone, Entry.activity]
  framed other := by
    have hnone : framesOn other t (⟨.dropped reason, sent, frames⟩, (r'.drop name reason).2) = 0 :=
      List.countP_eq_zero.2 fun f hf => by simp [hframes f hf]
    rw [List.countP_append,
      Entry.countP_arrivals harrived fun e he => .inr (.inl (of_decide_eq_true he).1)]
    simp [hnone, Entry.activity]
  drops := by
    rw [List.countP_append,
      Entry.countP_arrivals harrived fun e he => .inr (.inr (of_decide_eq_true he))]
    simp [Outcome.countedDrops, hreason, Entry.activity]

/-- A datagram that is dropped before anything is sent. -/
theorem explains_drop (hes : Posts es r.counters r'.counters) (harrived : ∀ e ∈ es, e.IsArrival)
    (hclient : ∀ e ∈ es, e.client?.isSome = true) (name : String) {reason : DropReason}
    (hreason : reason ≠ .unknownClient) :
    Explains t r d (r'.drop name reason) (es ++ [.dropped name]) :=
  explains_refused hes harrived hclient name hreason (fun _ hx => absurd hx List.not_mem_nil)
    fun _ hf => absurd hf List.not_mem_nil

/-- A datagram of which nothing is counted. -/
theorem explains_nothing {outcome : Outcome} (houtcome : outcome.countedDrops .unknownClient = 0) :
    Explains t r d (⟨outcome, [], []⟩, r) [] :=
  ⟨.nil _, nofun, nofun, fun _ => by simp [relayedOn], fun _ => rfl, houtcome.symm⟩

/-- A request that is sent to servers is entered as an arrival and once for each server that was
reached, and as a drop if none was. -/
theorem explains_sendToServers {ingress : Property}
    (hingress : t.props.get? d.ingress = some ingress) (type : MessageType) (p : Packet)
    (payload : Bytes) (servers : List V4Address) :
    ∃ es, Explains t r d ((r.noteRequest ingress.name type p).sendToServers net ingress.name
      p.clientKey payload servers) es := by
  rw [sendToServers_eq]
  dsimp only
  generalize attempts net payload servers = sent
  have harrival := enters_noteRequest r ingress.name type p
  split
  · next hempty =>
    have hnone : reached sent = [] := List.isEmpty_iff.1 hempty
    have hrefused : ∀ x ∈ sent, x.accepted = false := by
      simpa [reached, List.filter_eq_nil_iff] using hnone
    rw [hnone]
    exact ⟨_, explains_refused harrival.posts (List.forall_mem_singleton.2 (.inl rfl))
      (List.forall_mem_singleton.2 rfl) ingress.name (by decide) hrefused
      fun _ hf => absurd hf List.not_mem_nil⟩
  · next hempty =>
    refine ⟨.requestReceived ingress.name (some p.clientKey) ::
      (reached sent).map fun s => .requestSent ingress.name s.text (some p.clientKey),
      .cons harrival (posts_noteSent _ _ _ (reached sent)), fun e he => ?_, fun e he _ => ?_,
      fun other => ?_, fun other => ?_, ?_⟩
    · rcases List.mem_cons.1 he with rfl | he
      · exact nofun
      · obtain ⟨s, -, rfl⟩ := List.mem_map.1 he
        rintro _ ⟨⟩
        exact V4Address.underscore_notMem_text s
    · rcases List.mem_cons.1 he with rfl | he
      · rfl
      · obtain ⟨s, -, rfl⟩ := List.mem_map.1 he
        rfl
    · rw [List.countP_cons, Entry.countP_requestSent, relayedOn, hingress, length_reached]
      simp [Entry.activity]
    · simp [framesOn, Entry.activity, List.countP_eq_zero]
    · simp [Outcome.countedDrops, Entry.activity, List.countP_eq_zero]

/-- The handle through which a reply goes out is that of the egress interface and of no other. -/
theorem held_iff (ht : t.WellFormed) (hr : r.HandlesApart) {name other : String}
    {egress : ActiveInterface} (hegress : t.activeNamed? name = some egress) {handle : Handle}
    (hheld : r.handles.get? egress.property.index = some handle) :
    (t.props.index? other).bind r.handles.get? = some handle ↔ name = other := by
  obtain ⟨i, hi, hactive⟩ := Option.bind_eq_some_iff.1 hegress
  obtain ⟨-, rfl⟩ := ht.name_eq_of_activeAt? hactive
  constructor
  · intro hother
    obtain ⟨j, hj, hheld'⟩ := Option.bind_eq_some_iff.1 hother
    obtain rfl := hr.index_eq _ _ _ hheld hheld'
    obtain ⟨p, hp, rfl⟩ := ht.props.index?_eq_some_iff.1 hi
    obtain ⟨q, hq, rfl⟩ := ht.props.index?_eq_some_iff.1 hj
    rw [hp] at hq
    rw [Option.some.inj hq]
  · rintro rfl
    rw [hi]
    exact hheld

/-- A reply to a known client is entered as an arrival, and as delivered or dropped. -/
theorem explains_sendReply (ht : t.WellFormed) (hr : r'.HandlesApart) {name : String}
    {egress : ActiveInterface} (hegress : t.activeNamed? name = some egress) {handle : Handle}
    (hheld : r'.handles.get? egress.property.index = some handle) {ingress : String}
    {type : MessageType} {p : Packet}
    (hcounters : r'.counters = (r.noteReply ingress type p).counters) (frame : Bytes)
    (server : V4Address) :
    ∃ es, Explains t r d (r'.sendReply net name handle frame server p) es := by
  have harrival : Enters (.replyReceived ingress (some p.clientKey)) r.counters r'.counters :=
    hcounters ▸ enters_noteReply r ingress type p
  unfold sendReply
  split
  · refine ⟨[.replyReceived ingress (some p.clientKey),
      .replySent name server.text (some p.clientKey)],
      .cons harrival (enters_noteDelivered _ name p.clientKey server).posts, ?_, ?_,
      fun other => ?_, fun other => ?_, ?_⟩
    · simp only [List.forall_mem_cons, List.not_mem_nil, false_imp_iff, implies_true, and_true]
      refine ⟨nofun, ?_⟩
      rintro _ ⟨⟩
      exact V4Address.underscore_notMem_text server
    · simp [Entry.client?]
    · simp [relayedOn, Entry.activity]
    · simp [framesOn, Entry.activity, Entry.interface, held_iff ht hr hegress hheld]
    · simp [Outcome.countedDrops, Entry.activity]
  · exact ⟨_, explains_refused harrival.posts (List.forall_mem_singleton.2 (.inr rfl))
      (List.forall_mem_singleton.2 rfl) name (by decide) (fun _ hx => absurd hx List.not_mem_nil)
      (List.forall_mem_singleton.2 rfl)⟩

/-- Whatever becomes of a datagram, there are entries of it. -/
theorem explains_receive (net : Network) (ht : t.WellFormed) (hr : r.HandlesApart) (d : Datagram) :
    ∃ es, Explains t r d (r.receive net t d) es := by
  have hend := handled_receive net t r d
  generalize r.receive net t d = result at hend
  cases hend with
  | ignored | unknownClient => exact ⟨[], explains_nothing rfl⟩
  | @notActive ingress | @noAddress ingress | @hopLimit ingress =>
    exact ⟨_, explains_drop (.nil _) nofun nofun ingress.name (by decide)⟩
  | @missingServerId ingress _ _ type p =>
    exact ⟨_, explains_drop (enters_noteRequest r ingress.name type p).posts
      (List.forall_mem_singleton.2 (.inl rfl)) (List.forall_mem_singleton.2 rfl) ingress.name
      (by decide)⟩
  | request hadmits => exact explains_sendToServers hadmits.ingress_eq _ _ _ _
  | @egressNotActive ingress type p name | @egressNoAddress ingress type p name =>
    exact ⟨_, explains_drop (enters_noteReply r ingress.name type p).posts
      (List.forall_mem_singleton.2 (.inr rfl)) (List.forall_mem_singleton.2 rfl) name (by decide)⟩
  | @handleUnavailable ingress type p name _ _ _ _ _ _ hhandle =>
    exact ⟨_, explains_drop (enters_of_handle_eq hhandle).posts
      (List.forall_mem_singleton.2 (.inr rfl)) (List.forall_mem_singleton.2 rfl) name (by decide)⟩
  | @reply ingress type p name egress _ handle r' _ hegress _ hhandle =>
    have hnoted : (r.noteReply ingress.name type p).HandlesApart := hr.congr rfl rfl
    have hapart : r'.HandlesApart := by
      obtain rfl : ((r.noteReply ingress.name type p).handle net egress.property).2 = r' :=
        congrArg Prod.snd hhandle
      exact hnoted.handle egress.property
    exact explains_sendReply ht hapart hegress (handle_eq_some hhandle).1
      (counters_of_handle_eq hhandle) _ _

/-! ## Runs -/

/-- The journal of a run of a new relay. -/
structure Audit (ins : List Input) (journal : List Entry) : Prop where
  book : Book journal (({} : Relay).run ins).counters
  servers : ServerBook (fun _ server => '_' ∉ server.toList) journal (({} : Relay).run ins).counters
  client : ∀ e ∈ journal, e.activity ≠ .dropped → e.client?.isSome = true
  relayed (name : String) :
    journal.countP (fun e => e.activity = .requestSent ∧ e.interface = name) =
      tally (Input.relayedOn name) ins
  framed (name : String) :
    journal.countP (fun e => e.activity = .replySent ∧ e.interface = name) =
      tally (Input.framesOn name) ins
  drops : journal.countP (fun e => e.activity = .dropped) = tally Input.drops ins

/-- An input of which nothing is counted leaves the journal as it is. -/
theorem Audit.skip {ins : List Input} {journal : List Entry} {i : Input} (h : Audit ins journal)
    (hbook : Book journal ((({} : Relay).run ins).take i).counters)
    (hservers : ((({} : Relay).run ins).take i).counters.servers =
      (({} : Relay).run ins).counters.servers)
    (hnothing : ∀ name r, i.relayedOn name r = 0 ∧ i.framesOn name r = 0 ∧ i.drops r = 0) :
    Audit (ins ++ [i]) journal := by
  refine ⟨?_, ?_, h.client, fun name => ?_, fun name => ?_, ?_⟩
  · rwa [run, List.foldl_append]
  · rw [run, List.foldl_append]
    exact h.servers.congr hservers
  · rw [h.relayed, tally_append, (hnothing name _).1, Nat.add_zero]
  · rw [h.framed, tally_append, (hnothing name _).2.1, Nat.add_zero]
  · rw [h.drops, tally_append, (hnothing "" _).2.2, Nat.add_zero]

/-- The entries of a datagram follow on the journal. -/
theorem Audit.receive {ins : List Input} {journal : List Entry} (h : Audit ins journal)
    (hes : Explains t (({} : Relay).run ins) d ((({} : Relay).run ins).receive net t d) es) :
    Audit (ins ++ [.datagram net t d]) (journal ++ es) := by
  refine ⟨?_, ?_, ?_, fun name => ?_, fun name => ?_, ?_⟩
  · rw [run, List.foldl_append]
    exact h.book.posts hes.posts
  · rw [run, List.foldl_append]
    exact h.servers.posts separates_of_no_underscore hes.names hes.posts
  · exact List.forall_mem_append.2 ⟨h.client, hes.client⟩
  · rw [List.countP_append, h.relayed, hes.relayed, tally_append]
    rfl
  · rw [List.countP_append, h.framed, hes.framed, tally_append]
    rfl
  · rw [List.countP_append, h.drops, hes.drops, tally_append]
    rfl

/-- Every run has a journal. -/
theorem exists_audit (ins : List Input) (h : ∀ i ∈ ins, i.Regular) :
    ∃ journal, Audit ins journal := by
  induction ins using List.reverseRecOn with
  | nil =>
    exact ⟨[], .empty, .empty, nofun, fun _ => rfl, fun _ => rfl, rfl⟩
  | append_singleton ins i ih =>
    obtain ⟨hins, hi⟩ := List.forall_mem_append.1 h
    obtain ⟨journal, hjournal⟩ := ih hins
    have hi : i.Regular := hi i (List.mem_singleton_self i)
    cases i with
    | datagram net t d =>
      obtain ⟨es, hes⟩ := explains_receive net (Tracker.Reachable.wellFormed hi)
        (HandlesApart.empty.run ins) d
      exact ⟨_, hjournal.receive hes⟩
    | openLink net t index =>
      have hcounters : ((({} : Relay).run ins).openLink net t index).counters =
          (({} : Relay).run ins).counters := counters_openLink index
      refine ⟨journal, hjournal.skip ?_ ?_ fun _ _ => ⟨rfl, rfl, rfl⟩⟩
      · exact hcounters ▸ hjournal.book
      · exact congrArg Counters.servers hcounters
    | closeLink | closeLinks =>
      exact ⟨journal, hjournal.skip hjournal.book rfl fun _ _ => ⟨rfl, rfl, rfl⟩⟩
    | createInterface name =>
      exact ⟨journal, hjournal.skip (hjournal.book.createInterface name) rfl
        fun _ _ => ⟨rfl, rfl, rfl⟩⟩
    | deleteInterface => exact hi.elim

/-- After any run without a deletion the counters balance. -/
theorem counters_balance (ins : List Input) (h : ∀ i ∈ ins, i.Regular) :
    let c := (({} : Relay).run ins).counters
    c.interfaces.total (·.clientRx) = c.clients.total (·.clientRequests) ∧
    (∀ name, c.ofInterface name (·.serverTx) = c.ofServersOf name (·.requests) ∧
      c.ofInterface name (·.serverTx) = tally (Input.relayedOn name) ins) ∧
    c.interfaces.total (·.serverTx) = c.clients.total (·.serverRequests) ∧
    c.interfaces.total (·.serverRx) = c.clients.total (·.serverResponses) ∧
    (∀ name, c.ofInterface name (·.clientTx) = c.ofServersOf name (·.responses) ∧
      c.ofInterface name (·.clientTx) = tally (Input.framesOn name) ins) ∧
    c.interfaces.total (·.clientTx) = c.clients.total (·.clientResponses) ∧
    c.interfaces.total (·.drops) = tally Input.drops ins := by
  intro c
  obtain ⟨journal, hjournal⟩ := exists_audit ins h
  have hclients : ∀ a, a ≠ .dropped →
      c.interfaces.total (InterfaceRecord.count a) = c.clients.total (ClientRecord.count a) :=
    fun a ha => (hjournal.book.clients_eq_interfaces fun e he hea =>
      hjournal.client e he (hea ▸ ha)).symm
  refine ⟨hclients .requestReceived (by decide), fun name => ⟨?_, ?_⟩,
    hclients .requestSent (by decide), hclients .replyReceived (by decide), fun name => ⟨?_, ?_⟩,
    hclients .replySent (by decide), ?_⟩
  · exact hjournal.book.ofInterface_eq_ofServersOf hjournal.servers (.inl rfl) name
  · exact (hjournal.book.ofInterface_eq .requestSent name).trans (hjournal.relayed name)
  · exact hjournal.book.ofInterface_eq_ofServersOf hjournal.servers (.inr rfl) name
  · exact (hjournal.book.ofInterface_eq .replySent name).trans (hjournal.framed name)
  · exact (hjournal.book.interfaces_eq .dropped).trans hjournal.drops

end

/-! ## An exchange -/

/-- A network that takes the first transmission of a step only. -/
def firstOnly : Network := { openNetwork with accepts := fun n _ => n == 0 }

/-- A client looks for servers, of which one is reached, gets an offer, and asks for the address
without naming the server. -/
def exchange : List Input :=
  [.createInterface "eth0", .datagram firstOnly oneLink (clientDatagram .discover),
    .datagram openNetwork oneLink offerDatagram,
    .datagram openNetwork oneLink (clientDatagram .request)]

/-- The counters of the exchange. -/
theorem counters_balance_exchange :
    let c := (({} : Relay).run exchange).counters
    (∀ i ∈ exchange, i.Regular) ∧ c.clients.total (·.clientRequests) = 2 ∧
      c.ofServersOf "eth0" (·.requests) = 1 ∧ tally (Input.relayedOn "eth0") exchange = 1 ∧
      c.ofServersOf "eth0" (·.responses) = 1 ∧ tally (Input.framesOn "eth0") exchange = 1 ∧
      tally Input.drops exchange = 1 := by
  intro c
  have hlink : oneLink.Reachable .v4 :=
    ⟨[.setGlobal (.enabled 4), .setInterface linkConfig, .interfaceCreated linkProperty], rfl⟩
  have hregular : ∀ i ∈ exchange, i.Regular := by
    simp only [exchange, List.forall_mem_cons]
    exact ⟨trivial, hlink, hlink, hlink, nofun⟩
  obtain ⟨hrequests, hsent, -, -, hframes, -, hdrops⟩ := counters_balance exchange hregular
  -- the record of the interface is evaluated, and what it is equal to follows
  have hinterface : c.interfaces =
      (∅ : SortedTable String InterfaceRecord).insert "eth0"
        { name := "eth0", drops := 1, clientRx := 2, clientTx := 1, serverRx := 1,
          serverTx := 1 } := by
    decide +kernel
  have hserverTx : c.ofInterface "eth0" (·.serverTx) = 1 := by
    rw [Counters.ofInterface, hinterface]
    rfl
  have hclientTx : c.ofInterface "eth0" (·.clientTx) = 1 := by
    rw [Counters.ofInterface, hinterface]
    rfl
  refine ⟨hregular, hrequests.symm.trans ?_, (hsent "eth0").1.symm.trans hserverTx,
    (hsent "eth0").2.symm.trans hserverTx, (hframes "eth0").1.symm.trans hclientTx,
    (hframes "eth0").2.symm.trans hclientTx, hdrops.symm.trans ?_⟩
  · rw [hinterface]
    rfl
  · rw [hinterface]
    rfl

end DhcpRelay.V4.Relay
