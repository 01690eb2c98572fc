import DhcpRelay.Proofs.FanOut
import DhcpRelay.Proofs.V4.Balance

/-!
# Where a request is sent

An admitted request goes to every server whose text is an address, in list order, if the client
looks for servers, and else to the one that it names (`Packet.Names`), if it names one
(`Relay.Tries`). What is tried does not depend on what succeeds. What succeeds decides the outcome
and what is counted on the interface, for the client and for the servers, each success under the
address to which it went (`Relay.FansOut`).

All of it follows from one list of entries (`Relay.posts_sendToServers`): a request that has to name
its server and does not is counted like one that is sent to no server.
-/

namespace DhcpRelay.V4

/-! ## The server that a request names -/

/-- The first option of the code for a server's identifier holds the four octets of the address. -/
def Packet.Names (p : Packet) (a : V4Address) : Prop :=
  ∃ before after, p.options = before ++ .serverId a :: after ∧ ∀ o ∈ before, o.code ≠ 54

/-- The data of an option is an address if they are its octets. -/
theorem DhcpOption.address?_eq_some_iff {o : DhcpOption} {a : V4Address} :
    o.address? = some a ↔ o.data = a.octets.toList := by
  simp only [address?, Option.map_eq_some_iff, Octets.ofList?_eq_some_iff]
  constructor
  · rintro ⟨o, hdata, rfl⟩
    exact hdata
  · exact fun h => ⟨a.octets, h, rfl⟩

/-- The server that is read off a request is the one that it names. -/
theorem Packet.serverId?_eq_some_iff {p : Packet} {a : V4Address} :
    p.serverId? = some a ↔ p.Names a := by
  simp only [serverId?, Option.bind_eq_bind, Option.bind_eq_some_iff, option?,
    List.find?_eq_some_iff_append, DhcpOption.address?_eq_some_iff, beq_iff_eq, Bool.not_eq_true',
    beq_eq_false_iff_ne]
  constructor
  · rintro ⟨⟨code, data⟩, ⟨rfl, before, after, hoptions, hbefore⟩, hdata⟩
    obtain rfl : data = a.octets.toList := hdata
    exact ⟨before, after, hoptions, hbefore⟩
  · rintro ⟨before, after, hoptions, hbefore⟩
    exact ⟨.serverId a, ⟨rfl, before, after, hoptions, hbefore⟩, rfl⟩

namespace Relay

open Interface (Property)
open Counters (Entry Enters Posts)

/-! ## What is tried -/

/-- The servers whose text is an address. -/
def readable (servers : List String) : List String :=
  servers.filter fun text => (V4Address.parse? text).isSome

/-- The transmission goes to the server of the given text, on port 67. -/
def ToServer (text : String) (x : Transmission) : Prop :=
  ∃ a, V4Address.parse? text = some a ∧ x.destination = ⟨a, 67⟩

/-- The transmissions of a request, and why it is dropped if none succeeds. A client that looks for
servers reaches one after the other; any other request goes to the server that it names, if it names
one. -/
inductive Tries (servers : List String) (type : MessageType) (p : Packet) :
    List Transmission → DropReason → Prop where
  | all {sent : List Transmission} (htype : type = .discover)
      (hsent : List.Forall₂ ToServer servers sent) : Tries servers type p sent .noServerReachable
  | named {a : V4Address} {x : Transmission} (htype : type ≠ .discover) (hnames : p.Names a)
      (hto : x.destination = ⟨a, 67⟩) : Tries servers type p [x] .noServerReachable
  | unnamed (htype : type ≠ .discover) (hnone : ∀ a, ¬ p.Names a) :
      Tries servers type p [] .missingServerId

/-- A request that arrives on the interface called `name` is sent to all there is to send it to,
each once, whatever succeeds. The outcome and the counters are those of the successes: without any,
the request is dropped and one drop more is counted on the interface; every success is one more on
the interface, for the client, and on the record of its own destination. -/
structure FansOut (net : Network) (name : String) (servers : List String) (type : MessageType)
    (p : Packet) (payload : Bytes) (r : Relay) (result : Receipt × Relay) : Prop where
  ends : ∃ reason, Tries servers type p result.1.sent reason ∧ result.1.outcome =
    if result.1.sent.countP (·.accepted) = 0 then .dropped reason
    else .relayed (result.1.sent.countP (·.accepted))
  payload_eq : ∀ x ∈ result.1.sent, x.payload = payload
  accepted_eq : ∀ n x, result.1.sent[n]? = some x → x.accepted = net.accepts n x.destination
  serverTx_eq (other : String) : result.2.counters.ofInterface other (·.serverTx) =
    r.counters.ofInterface other (·.serverTx) +
      if name = other then result.1.sent.countP (·.accepted) else 0
  serverRequests_eq (client : String) : result.2.counters.ofClient client (·.serverRequests) =
    r.counters.ofClient client (·.serverRequests) +
      if p.clientKey = client then result.1.sent.countP (·.accepted) else 0
  requests_eq (key : String) : result.2.counters.atKey key (·.requests) =
    r.counters.atKey key (·.requests) +
      result.1.sent.countP fun x => x.accepted && serverKey name x.destination.address.text = key
  drops_eq (other : String) : result.2.counters.ofInterface other (·.drops) =
    r.counters.ofInterface other (·.drops) +
      if result.1.sent.countP (·.accepted) = 0 ∧ name = other then 1 else 0

section
variable {net : Network} {t : Tracker} {r r' : Relay} {d : Datagram} {name client : String}
  {payload : Bytes} {servers : List V4Address}

/-- The network decides every attempt by its place among the others and by its destination. -/
theorem accepted_of_getElem?_attempts {n : Nat} {x : Transmission}
    (h : (attempts net payload servers)[n]? = some x) :
    x.accepted = net.accepts n x.destination := by
  rw [attempts, List.getElem?_mapIdx] at h
  obtain ⟨server, -, rfl⟩ := Option.map_eq_some_iff.1 h
  rfl

/-- Of the servers of a record those whose text is an address are tried, one after the other. -/
theorem forall₂_attempts (texts : List String) : List.Forall₂ ToServer (readable texts)
    (attempts net payload (texts.filterMap V4Address.parse?)) := by
  have hforall := forall₂_mapIdx_filterMap (R := ToServer) (o := V4Address.parse?)
    (g := fun _ a => a) (f := attempt net payload)
    (fun _ _ a ha => ⟨a, ha, rfl⟩) texts
  simp only [Option.map_id'] at hforall
  exact hforall

/-! ## What is counted -/

/-- What is counted of a request that is sent to servers are its entries. -/
theorem posts_sendToServers
    (harrival : Enters (.requestReceived name (some client)) r.counters r'.counters) :
    Posts (Entry.sending name (some client)
        ((reached (attempts net payload servers)).map V4Address.text))
      r.counters (r'.sendToServers net name client payload servers).2.counters := by
  have hsent := Posts.cons harrival
    (posts_noteSent r'.counters name client (reached (attempts net payload servers)))
  rw [sendToServers_eq, Entry.sending, List.map_map]
  dsimp only
  by_cases hnone : reached (attempts net payload servers) = []
  · rw [if_pos (List.isEmpty_iff.2 hnone), if_pos (List.map_eq_nil_iff.2 hnone)]
    exact hsent.trans (Counters.enters_drop _ _).posts
  · rw [if_neg (mt List.isEmpty_iff.1 hnone), if_neg (mt List.map_eq_nil_iff.1 hnone),
      List.append_nil]
    exact hsent

/-- What holds of the servers that are reached is counted among the accepted transmissions. -/
theorem countP_reached (sent : List Transmission) (q : V4Address → Bool) :
    (reached sent).countP q = sent.countP fun x => x.accepted && q x.destination.address := by
  rw [reached, List.countP_map, List.countP_filter]
  exact List.countP_congr fun x _ => by simp [and_comm]

/-- A request fans out if it is tried where it is to be sent, with an outcome and entries that are
those of the successes. -/
theorem FansOut.of_posts {servers : List String} {type : MessageType} {p : Packet}
    {result : Receipt × Relay}
    (hends : ∃ reason, Tries servers type p result.1.sent reason ∧ result.1.outcome =
      if result.1.sent.countP (·.accepted) = 0 then .dropped reason
      else .relayed (result.1.sent.countP (·.accepted)))
    (hpayload : ∀ x ∈ result.1.sent, x.payload = payload)
    (haccepted : ∀ n x, result.1.sent[n]? = some x → x.accepted = net.accepts n x.destination)
    (hposts : Posts (Entry.sending name (some p.clientKey)
      ((reached result.1.sent).map V4Address.text)) r.counters result.2.counters) :
    FansOut net name servers type p payload r result where
  ends := hends
  payload_eq := hpayload
  accepted_eq := haccepted
  serverTx_eq other := by
    refine (hposts.ofInterface_eq .requestSent other).trans (congrArg _ ?_)
    rw [Entry.countP_sending fun e he => (of_decide_eq_true he).1, ← length_reached]
    by_cases h : name = other <;> simp [h, Entry.activity, Entry.interface]
  serverRequests_eq client := by
    refine (hposts.ofClient_eq .requestSent client).trans (congrArg _ ?_)
    rw [Entry.countP_sending fun e he => (of_decide_eq_true he).1, ← length_reached]
    by_cases h : p.clientKey = client <;> simp [h, Entry.activity, Entry.client?]
  requests_eq key := by
    refine (hposts.atKey_eq .requestSent key).trans (congrArg _ ?_)
    rw [Entry.countP_sending fun e he => (of_decide_eq_true he).1, List.countP_map,
      countP_reached]
    exact List.countP_congr fun x _ => by simp [Entry.activity, Entry.key?, Entry.server?,
      Entry.interface]
  drops_eq other := by
    refine (hposts.ofInterface_eq .dropped other).trans (congrArg _ ?_)
    rw [Entry.countP_dropped_sending, ← length_reached]
    simp only [List.map_eq_nil_iff, List.length_eq_zero_iff]

/-- A request that is noted and sent to servers fans out, if these are where it is to be sent. -/
theorem fansOut_sendToServers {type : MessageType} {p : Packet} {texts : List String}
    (htries : Tries texts type p (attempts net payload servers) .noServerReachable) :
    FansOut net name texts type p payload r
      ((r.noteRequest name type p).sendToServers net name p.clientKey payload servers) := by
  have hsent : ((r.noteRequest name type p).sendToServers net name p.clientKey payload
      servers).1.sent = attempts net payload servers := sent_sendToServers ..
  refine .of_posts ⟨.noServerReachable, hsent ▸ htries, ?_⟩
    (fun x hx => payload_of_mem_sendToServers hx)
    (fun n x hx => accepted_of_getElem?_attempts (hsent ▸ hx)) ?_
  · rw [hsent, ← length_reached, sendToServers_eq]
    dsimp only
    cases reached (attempts net payload servers) <;> rfl
  · rw [hsent]
    exact posts_sendToServers (enters_noteRequest r name type p)

/-- A request that has to name its server and does not fans out to no server. -/
theorem fansOut_drop {type : MessageType} {p : Packet} {texts : List String}
    (htries : Tries texts type p [] .missingServerId) :
    FansOut net name texts type p payload r
      ((r.noteRequest name type p).drop name .missingServerId) :=
  .of_posts ⟨.missingServerId, htries, rfl⟩ nofun (fun n x hx => by cases hx)
    (.cons (enters_noteRequest r name type p) (Counters.enters_drop _ name).posts)

/-- An admitted request fans out to the servers of its interface whose text is an address. -/
theorem Admits.fansOut {ingress : Property} {active : ActiveInterface} {address : V4Address}
    {type : MessageType} {p : Packet} (h : Admits t d ingress active address type p)
    (net : Network) (r : Relay) :
    FansOut net ingress.name (readable active.config.servers) type p
      (forwarded address type p).encode r (r.receive net t d) := by
  rw [receive_of_admits h]
  by_cases htype : type = .discover
  · subst htype
    rw [relayRequest_of_admits h net r rfl]
    exact fansOut_sendToServers (.all rfl (forall₂_attempts _))
  · have hservers : servers? active.config type p = p.serverId?.map ([·]) := by
      cases type <;> first | rfl | exact absurd rfl htype
    cases hnamed : p.serverId? with
    | none =>
      rw [relayRequest_of_unnamed h net r (by rw [hservers, hnamed]; rfl)]
      refine fansOut_drop (.unnamed htype fun a hnames => ?_)
      cases hnamed.symm.trans (Packet.serverId?_eq_some_iff.2 hnames)
    | some a =>
      rw [relayRequest_of_admits h net r (by rw [hservers, hnamed]; rfl)]
      exact fansOut_sendToServers (.named htype (Packet.serverId?_eq_some_iff.1 hnamed) rfl)

end

end Relay

end DhcpRelay.V4
