import DhcpRelay.Proofs.SortedTable
import DhcpRelay.Proofs.V6.Handling

/-!
# Where peers were last seen

A message on its way to the servers shows its sender on the interface on which it arrived, if it can
be read and the interface is active (`Relay.sighting?`). Whatever a relay takes in, its table holds
for each peer the interface of the last message that showed it (`Relay.get?_peers_run`).
-/

namespace DhcpRelay.V6.Relay

/-! ## Runs -/

/-- What a relay takes in. The network and the tracker are as they are when the datagram arrives. -/
inductive Input where
  | datagram (net : Network) (t : Tracker) (d : Datagram)
  | createInterface (name : String)
  | deleteInterface (name : String)

/-- Takes one thing in. -/
def take (r : Relay) : Input → Relay
  | .datagram net t d => (r.receive net t d).2
  | .createInterface name => { r with counters := r.counters.createInterface name }
  | .deleteInterface name => { r with counters := r.counters.deleteInterface name }

/-- Takes things in one after another. -/
def run (r : Relay) (ins : List Input) : Relay := ins.foldl take r

/-! ## Sightings -/

/-- The interface on which an input shows a peer. -/
def Input.shows? (peer : V6Address) : Input → Option String
  | .datagram _ t d => if d.source = peer then sighting? t d else none
  | .createInterface _ => none
  | .deleteInterface _ => none

/-- The interface on which the last input that shows a peer shows it. -/
def lastSeen? (peer : V6Address) (ins : List Input) : Option String :=
  ins.reverse.findSome? (·.shows? peer)

section
variable {net : Network} {t : Tracker} {r : Relay} {d : Datagram} {peer : V6Address}

/-- After one input more a peer was last seen there, if that input shows it. -/
theorem lastSeen?_cons (i : Input) (ins : List Input) :
    lastSeen? peer (i :: ins) = (lastSeen? peer ins).or (i.shows? peer) := by
  rw [lastSeen?, List.reverse_cons, List.findSome?_append, List.findSome?_singleton]
  rfl

@[simp] theorem peers_drop (name : String) (reason : DropReason) :
    (r.drop name reason).2.peers = r.peers := rfl

@[simp] theorem peers_noteClient (name : String) (m : ClientMessage) :
    (r.noteClient name peer m).peers = r.peers.insert peer name := by
  unfold noteClient
  split <;> rfl

@[simp] theorem peers_sendUpstream (a : ActiveInterface) (client : Option String)
    (payload : Bytes) : (r.sendUpstream net t a client payload).2.peers = r.peers := by
  unfold sendUpstream
  dsimp only
  split <;> rfl

@[simp] theorem peers_noteReply (name : String) (client : Option (String × ClientMessage)) :
    (r.noteReply name client).peers = r.peers := by
  cases client <;> rfl

@[simp] theorem peers_sendReply (name : String) (index : Int) (server peer : V6Address)
    (client : Option String) (inner : Bytes) :
    (r.sendReply net name index server peer client inner).2.peers = r.peers := by
  unfold sendReply
  dsimp only
  split <;> rfl

/-- A datagram changes the table for its sender if it shows it, and for no one else. -/
theorem get?_peers_receive (net : Network) (t : Tracker) (r : Relay) (d : Datagram)
    (peer : V6Address) : (r.receive net t d).2.peers.get? peer =
      ((Input.datagram net t d).shows? peer).or (r.peers.get? peer) := by
  have hshown : ∀ {name}, sighting? t d = some name →
      (r.peers.insert d.source name).get? peer =
        ((Input.datagram net t d).shows? peer).or (r.peers.get? peer) := by
    intro name hs
    rw [SortedTable.get?_insert_eq, Input.shows?, hs]
    by_cases hp : peer = d.source
    · rw [if_pos hp, if_pos hp.symm, Option.some_or]
    · rw [if_neg hp, if_neg (Ne.symm hp), Option.none_or]
  have hhidden : sighting? t d = none →
      r.peers.get? peer = ((Input.datagram net t d).shows? peer).or (r.peers.get? peer) := by
    intro hs
    rw [Input.shows?, hs, ite_self, Option.none_or]
  have h := handled_receive net t r d
  generalize r.receive net t d = result at h
  cases h with
  | ignored hs => exact hhidden hs
  | notActive hname htype hrequest hactive => exact hhidden (sighting?_of_not_active hactive)
  | client hactive hclient hparse =>
    rw [peers_sendUpstream, peers_noteClient]
    exact hshown (sighting?_of_client hactive hclient hparse)
  | hopLimit hactive hforward hparse hlimit =>
    exact hshown (sighting?_of_forward hactive hforward hparse)
  | forward hactive hforward hparse hlimit =>
    rw [peers_sendUpstream]
    exact hshown (sighting?_of_forward hactive hforward hparse)
  | unknownPeer hreply hpeer => exact hhidden (sighting?_of_reply hreply.type_eq)
  | egressNotActive hreply hpeer hegress =>
    rw [peers_drop, peers_noteReply]
    exact hhidden (sighting?_of_reply hreply.type_eq)
  | reply hreply hpeer hegress =>
    rw [peers_sendReply, peers_noteReply]
    exact hhidden (sighting?_of_reply hreply.type_eq)

/-- An input changes the table for the peer it shows, if it shows one, and for no one else. -/
theorem get?_peers_take (r : Relay) (i : Input) (peer : V6Address) :
    (r.take i).peers.get? peer = (i.shows? peer).or (r.peers.get? peer) := by
  cases i with
  | datagram net t d => exact get?_peers_receive net t r d peer
  | createInterface name => rfl
  | deleteInterface name => rfl

/-- After a run the table holds for each peer where it was last seen, and for a peer that was not
seen what it held before. -/
theorem get?_peers_run (r : Relay) (ins : List Input) (peer : V6Address) :
    (r.run ins).peers.get? peer = (lastSeen? peer ins).or (r.peers.get? peer) := by
  unfold run
  induction ins generalizing r with
  | nil => rfl
  | cons i ins ih => rw [List.foldl_cons, ih, lastSeen?_cons, Option.or_assoc, get?_peers_take]

/-- A datagram that shows nobody leaves the table as it is. -/
theorem peers_receive_of_sighting? (net : Network) (r : Relay) (h : sighting? t d = none) :
    (r.receive net t d).2.peers = r.peers := by
  refine SortedTable.ext_get? fun peer => ?_
  rw [get?_peers_receive, Input.shows?, h, ite_self, Option.none_or]

/-- After a datagram that shows its sender and a run the table holds for that sender where the run
has seen it last, and otherwise where the datagram showed it. -/
theorem get?_peers_receive_run {name : String} (h : sighting? t d = some name) (ins : List Input) :
    ((r.receive net t d).2.run ins).peers.get? d.source =
      some ((lastSeen? d.source ins).getD name) := by
  rw [get?_peers_run, get?_peers_receive, Input.shows?, if_pos rfl, h, Option.some_or]
  cases lastSeen? d.source ins <;> rfl

end

end DhcpRelay.V6.Relay
