import DhcpRelay.Proofs.History
import DhcpRelay.Proofs.SortedTable
import DhcpRelay.Proofs.V4.Handling

/-!
# Where clients were last seen

Only a request that is admitted shows its client on the interface on which it arrives
(`Relay.peers_receive`); a reply leaves the table of clients as it is
(`Relay.peers_receive_of_reply`). So after any run the table holds for each client the interface of
its latest request, and nothing for a client without one (`Relay.get?_peers_run_eq_some_iff`).
-/

namespace DhcpRelay.V4.Relay

open Interface (Property)

/-! ## Runs -/

/-- What a relay takes in. The network and the tracker are as they are at that moment. -/
inductive Input where
  | datagram (net : Network) (t : Tracker) (d : Datagram)
  | openLink (net : Network) (t : Tracker) (index : Int)
  | closeLink (index : Int)
  | closeLinks
  | createInterface (name : String)
  | deleteInterface (name : String)

/-- Takes one thing in. -/
def take (r : Relay) : Input → Relay
  | .datagram net t d => (r.receive net t d).2
  | .openLink net t index => r.openLink net t index
  | .closeLink index => r.closeLink index
  | .closeLinks => r.closeLinks
  | .createInterface name => { r with counters := r.counters.createInterface name }
  | .deleteInterface name => { r with counters := r.counters.deleteInterface name }

/-- Takes things in one after another. -/
def run (r : Relay) (ins : List Input) : Relay := ins.foldl take r

/-! ## Requests -/

/-- A request of the client is admitted on the interface called `name`. -/
def Input.Requests (client name : String) : Input → Prop
  | .datagram _ t d => ∃ ingress active address type p,
      Admits t d ingress active address type p ∧ p.clientKey = client ∧ ingress.name = name
  | _ => False

/-- The latest admitted request of the client arrived on the interface called `name`. -/
def LatestRequest (client name : String) : List Input → Prop :=
  History.Latest (·.Requests client name) fun i => ∃ other, i.Requests client other

section
variable {net : Network} {t : Tracker} {r : Relay} {d : Datagram} {ingress : Property}
  {active : ActiveInterface} {address : V4Address} {type : MessageType} {p : Packet}
  {client name : String}

@[simp] theorem peers_openHandle (name : String) (index : Int) :
    (r.openHandle net name index).2.peers = r.peers := by
  unfold openHandle
  split <;> rfl

@[simp] theorem peers_openLink (index : Int) : (r.openLink net t index).peers = r.peers := by
  unfold openLink
  split
  · exact peers_openHandle _ _
  · rfl

@[simp] theorem peers_handle (egress : Property) :
    (r.handle net egress).2.peers = r.peers := by
  unfold handle
  split
  · rfl
  · exact peers_openHandle _ _

@[simp] theorem peers_sendToServers (client : String) (payload : Bytes)
    (servers : List V4Address) :
    (r.sendToServers net name client payload servers).2.peers = r.peers := by
  unfold sendToServers
  dsimp only
  split <;> rfl

@[simp] theorem peers_sendReply (handle : Handle) (frame : Bytes) (server : V4Address) :
    (r.sendReply net name handle frame server p).2.peers = r.peers := by
  unfold sendReply
  split <;> rfl

/-- A datagram that is an admitted request shows its client on the interface on which it arrives.
Any other datagram leaves the table of clients as it is. -/
theorem peers_receive (net : Network) (t : Tracker) (r : Relay) (d : Datagram) :
    (∃ ingress active address type p, Admits t d ingress active address type p ∧
      (r.receive net t d).2.peers = r.peers.insert p.clientKey ingress.name) ∨
    (∀ ingress active address type p, ¬ Admits t d ingress active address type p) ∧
      (r.receive net t d).2.peers = r.peers := by
  have hend := handled_receive net t r d
  generalize r.receive net t d = result at hend
  cases hend with
  | ignored hunread => exact .inr ⟨fun _ _ _ _ _ h => hunread _ _ _ h.toReads, rfl⟩
  | notActive hreads hrequest hactive =>
    refine .inr ⟨fun _ _ _ _ _ h => ?_, rfl⟩
    obtain ⟨rfl, rfl, rfl⟩ := hreads.unique h.toReads
    cases hactive.symm.trans h.active_eq
  | noAddress hreads hrequest hactive haddress =>
    refine .inr ⟨fun _ _ _ _ _ h => ?_, rfl⟩
    obtain ⟨rfl, rfl, rfl⟩ := hreads.unique h.toReads
    obtain rfl := Option.some.inj (hactive.symm.trans h.active_eq)
    cases haddress.symm.trans h.address_eq
  | hopLimit hreads hrequest hactive haddress hlimit =>
    refine .inr ⟨fun _ _ _ _ _ h => ?_, rfl⟩
    obtain ⟨rfl, rfl, rfl⟩ := hreads.unique h.toReads
    exact absurd h.hops_lt (UInt8.not_lt.2 hlimit)
  | missingServerId hadmits => exact .inl ⟨_, _, _, _, _, hadmits, rfl⟩
  | request hadmits => exact .inl ⟨_, _, _, _, _, hadmits, peers_sendToServers _ _ _⟩
  | unknownClient hreads hreply => exact .inr ⟨fun _ _ _ _ _ => hreads.not_admits hreply, rfl⟩
  | egressNotActive hexpects | egressNoAddress hexpects =>
    exact .inr ⟨fun _ _ _ _ _ => hexpects.toReads.not_admits hexpects.isReply, rfl⟩
  | handleUnavailable hexpects _ _ hhandle =>
    refine .inr ⟨fun _ _ _ _ _ => hexpects.toReads.not_admits hexpects.isReply, ?_⟩
    exact (congrArg (·.2.peers) hhandle).symm.trans (peers_handle _)
  | reply hexpects _ _ hhandle =>
    refine .inr ⟨fun _ _ _ _ _ => hexpects.toReads.not_admits hexpects.isReply, ?_⟩
    rw [peers_sendReply]
    exact (congrArg (·.2.peers) hhandle).symm.trans (peers_handle _)

/-- A reply leaves the table of clients as it is. -/
theorem peers_receive_of_reply (hreads : Reads t d ingress type p)
    (hreply : type.isRequest = false) : (r.receive net t d).2.peers = r.peers := by
  obtain ⟨_, _, _, _, _, hadmits, -⟩ | ⟨-, hpeers⟩ := peers_receive net t r d
  · exact absurd hadmits (hreads.not_admits hreply)
  · exact hpeers

/-- What a datagram that is an admitted request asks for is determined. -/
theorem Input.requests_iff (h : Admits t d ingress active address type p) :
    (Input.datagram net t d).Requests client name ↔ p.clientKey = client ∧ ingress.name = name := by
  constructor
  · rintro ⟨ingress', active', address', type', p', hadmits, hclient, hname⟩
    obtain ⟨rfl, rfl, rfl, rfl, rfl⟩ := h.unique hadmits
    exact ⟨hclient, hname⟩
  · rintro ⟨hclient, hname⟩
    exact ⟨_, _, _, _, _, h, hclient, hname⟩

/-- After one input more a client was last seen where that input shows it, and otherwise where it
was seen before. -/
theorem get?_peers_take (r : Relay) (i : Input) : (r.take i).peers.get? client = some name ↔
    i.Requests client name ∨
      (¬ ∃ other, i.Requests client other) ∧ r.peers.get? client = some name := by
  cases i with
  | datagram net t d =>
    show (r.receive net t d).2.peers.get? client = some name ↔ _
    obtain ⟨ingress, active, address, type, p, hadmits, hpeers⟩ | ⟨hnone, hpeers⟩ :=
      peers_receive net t r d
    · rw [hpeers, SortedTable.get?_insert_eq]
      simp only [Input.requests_iff hadmits]
      by_cases hclient : p.clientKey = client
      · simp [hclient]
      · simp [hclient, Ne.symm hclient]
    · have hrequests : ∀ other, ¬ (Input.datagram net t d).Requests client other :=
        fun other ⟨_, _, _, _, _, hadmits, _⟩ => hnone _ _ _ _ _ hadmits
      simp [hpeers, hrequests]
  | openLink net t index => simp [take, Input.Requests]
  | closeLink | closeLinks | createInterface | deleteInterface =>
    simp [take, Input.Requests, closeLink, closeLinks]

/-- After a run of a new relay the table holds for each client the interface of its latest admitted
request, and nothing for a client without one. -/
theorem get?_peers_run_eq_some_iff (ins : List Input) :
    (({} : Relay).run ins).peers.get? client = some name ↔ LatestRequest client name ins := by
  induction ins using List.reverseRecOn with
  | nil => exact iff_of_false nofun History.not_latest_nil
  | append_singleton ins i ih =>
    rw [LatestRequest, History.latest_append, run, List.foldl_append, List.foldl_cons,
      List.foldl_nil, get?_peers_take]
    exact or_congr_right (and_congr_right fun _ => ih)

end

end DhcpRelay.V4.Relay
