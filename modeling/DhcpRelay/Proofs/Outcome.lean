import DhcpRelay.Proofs.V4.Balance
import DhcpRelay.Proofs.V6.FanOut

/-!
# What an outcome tells

A relay has an outcome for every datagram, and it tells what the datagram did (`Outcome.Tells`).
After an ignored datagram or one for an unknown receiver nothing was attempted and the relay is as
before. After any other drop no attempt succeeded, and one drop more is counted on one interface.
After a message went on, as many attempts succeeded as the outcome says, and no drop is counted.

This holds of both relays in any state, whatever datagram arrives and whichever attempts fail
(`Outcome.tells_receive`).
-/

namespace DhcpRelay

open Counters (Entry Enters Posts)

namespace Outcome

/-- What an outcome tells of the attempts of a step, by whether each succeeded, and of the states
before and after it. -/
def Tells {ρ σ : Type} (counters : ρ → Counters σ) (attempts : List Bool) (r r' : ρ) :
    Outcome → Prop
  | ignored | dropped .unknownClient | dropped .unknownPeer => attempts = [] ∧ r' = r
  | dropped _ => true ∉ attempts ∧ ∃ name, ∀ other,
      (counters r').ofInterface other (·.drops) =
        (counters r).ofInterface other (·.drops) + if other = name then 1 else 0
  | relayed k => 1 ≤ k ∧ attempts.count true = k ∧ ∀ name,
      (counters r').ofInterface name (·.drops) = (counters r).ofInterface name (·.drops)
  | delivered _ => attempts.count true = 1 ∧ ∀ name,
      (counters r').ofInterface name (·.drops) = (counters r).ofInterface name (·.drops)

section
variable {ρ σ : Type} [Inhabited σ] {counters : ρ → Counters σ} {attempts : List Bool} {r r' : ρ}
  {es : List Entry}

/-- Entries none of which is a drop leave the numbers of drops as they are. -/
theorem drops_eq_of_posts {c c' : Counters σ} (hes : Posts es c c')
    (hkept : ∀ e ∈ es, e.activity ≠ .dropped) (name : String) :
    c'.ofInterface name (·.drops) = c.ofInterface name (·.drops) := by
  have hnone : es.countP (fun e => e.activity = .dropped ∧ e.interface = name) = 0 :=
    List.countP_eq_zero.2 fun e he => by simp [hkept e he]
  exact (hes.ofInterface_eq .dropped name).trans (by rw [hnone, Nat.add_zero]; rfl)

/-- A message that is dropped for a reason that is counted, perhaps after it arrived. -/
theorem tells_dropped {reason : DropReason} (hclient : reason ≠ .unknownClient)
    (hpeer : reason ≠ .unknownPeer) (hnone : true ∉ attempts) (name : String)
    (hes : Posts (es ++ [.dropped name]) (counters r) (counters r'))
    (harrived : ∀ e ∈ es, e.IsArrival) : (dropped reason).Tells counters attempts r r' := by
  have hdrops : ∀ other, (counters r').ofInterface other (·.drops) =
      (counters r).ofInterface other (·.drops) + if other = name then 1 else 0 := by
    intro other
    refine (hes.ofInterface_eq .dropped other).trans ?_
    rw [List.countP_append, Entry.countP_arrivals harrived fun e he =>
      .inr (.inr (of_decide_eq_true he).1), Nat.zero_add, List.countP_singleton]
    simp only [Entry.activity, Entry.interface, true_and, decide_eq_true_eq, eq_comm (a := name)]
    rfl
  cases reason with
  | unknownClient => exact absurd rfl hclient
  | unknownPeer => exact absurd rfl hpeer
  | notActive | noAddress | hopLimit | missingServerId | noServerReachable | egressNotActive
  | egressNoAddress | handleUnavailable | linkSendFailed | sendFailed =>
    exact ⟨hnone, name, hdrops⟩

end

end Outcome

/-! ## DHCPv4 -/

namespace V4

/-- Whether each attempt of a step succeeded, towards the servers and towards the clients. -/
def Receipt.attempts (x : Receipt) : List Bool :=
  x.sent.map (·.accepted) ++ x.frames.map (·.accepted)

namespace Relay

open Interface (Property)

/-- The outcome of a step tells what it did. -/
def Told (r : Relay) (result : Receipt × Relay) : Prop :=
  result.1.outcome.Tells Relay.counters result.1.attempts r result.2

section
variable {net : Network} {t : Tracker} {r r' : Relay} {d : Datagram} {es : List Entry}

theorem told_drop (hes : Posts es r.counters r'.counters) (harrived : ∀ e ∈ es, e.IsArrival)
    (name : String) {reason : DropReason} (hclient : reason ≠ .unknownClient)
    (hpeer : reason ≠ .unknownPeer) : Told r (r'.drop name reason) :=
  Outcome.tells_dropped hclient hpeer List.not_mem_nil name
    (hes.trans (Counters.enters_drop _ name).posts) harrived

theorem told_sendToServers {name client : String}
    (harrival : Enters (.requestReceived name (some client)) r.counters r'.counters)
    (payload : Bytes) (servers : List V4Address) :
    Told r (r'.sendToServers net name client payload servers) := by
  rw [sendToServers_eq]
  dsimp only
  generalize attempts net payload servers = sent
  have hattempts : (sent.map (·.accepted)).count true = (reached sent).length := by
    rw [length_reached, List.count, List.countP_map]
    exact List.countP_congr fun x _ => by simp
  split
  · next hempty =>
    have hnone : reached sent = [] := List.isEmpty_iff.1 hempty
    rw [hnone] at hattempts ⊢
    refine Outcome.tells_dropped (by decide) (by decide) ?_ name
      (harrival.posts.trans (Counters.enters_drop _ name).posts)
      (List.forall_mem_singleton.2 (.inl rfl))
    simpa [Receipt.attempts, drop, List.count_eq_zero] using hattempts
  · next hsome =>
    refine ⟨List.length_pos_iff.2 fun h => hsome (List.isEmpty_iff.2 h), ?_,
      Outcome.drops_eq_of_posts (.cons harrival (posts_noteSent _ name client (reached sent))) ?_⟩
    · simpa [Receipt.attempts] using hattempts
    · simp [Entry.activity]

theorem told_sendReply {ingress : String} {p : Packet}
    (harrival : Enters (.replyReceived ingress (some p.clientKey)) r.counters r'.counters)
    (name : String) (handle : Handle) (frame : Bytes) (server : V4Address) :
    Told r (r'.sendReply net name handle frame server p) := by
  unfold sendReply
  split
  · refine ⟨rfl, Outcome.drops_eq_of_posts
      (.cons harrival (enters_noteDelivered _ name p.clientKey server).posts) ?_⟩
    simp [Entry.activity]
  · exact Outcome.tells_dropped (by decide) (by decide) (by simp [Receipt.attempts, drop]) name
      (harrival.posts.trans (Counters.enters_drop _ name).posts)
      (List.forall_mem_singleton.2 (.inr rfl))

/-- Whatever becomes of a datagram, the outcome tells it. -/
theorem told_receive (net : Network) (t : Tracker) (r : Relay) (d : Datagram) :
    Told r (r.receive net t d) := by
  have hend := handled_receive net t r d
  generalize r.receive net t d = result at hend
  cases hend with
  | ignored | unknownClient => exact ⟨rfl, rfl⟩
  | @notActive ingress | @noAddress ingress | @hopLimit ingress =>
    exact told_drop (.nil _) nofun ingress.name (by decide) (by decide)
  | @missingServerId ingress _ _ type p =>
    exact told_drop (enters_noteRequest r ingress.name type p).posts
      (List.forall_mem_singleton.2 (.inl rfl)) ingress.name (by decide) (by decide)
  | @request ingress _ _ type p => exact told_sendToServers (enters_noteRequest r _ type p) _ _
  | @egressNotActive ingress type p name | @egressNoAddress ingress type p name =>
    exact told_drop (enters_noteReply r ingress.name type p).posts
      (List.forall_mem_singleton.2 (.inr rfl)) name (by decide) (by decide)
  | @handleUnavailable _ _ _ name _ _ _ _ _ _ hhandle =>
    exact told_drop (enters_of_handle_eq hhandle).posts (List.forall_mem_singleton.2 (.inr rfl))
      name (by decide) (by decide)
  | reply _ _ _ hhandle => exact told_sendReply (enters_of_handle_eq hhandle) _ _ _ _

end

end Relay

end V4

/-! ## DHCPv6 -/

namespace V6

/-- Whether each attempt of a step succeeded. -/
def Receipt.attempts (x : Receipt) : List Bool := x.sent.map (·.accepted)

namespace Relay

/-- The outcome of a step tells what it did. -/
def Told (r : Relay) (result : Receipt × Relay) : Prop :=
  result.1.outcome.Tells Relay.counters result.1.attempts r result.2

section
variable {net : Network} {t : Tracker} {r r' : Relay} {d : Datagram} {es : List Entry}

theorem told_drop (hes : Posts es r.counters r'.counters) (harrived : ∀ e ∈ es, e.IsArrival)
    (name : String) {reason : DropReason} (hclient : reason ≠ .unknownClient)
    (hpeer : reason ≠ .unknownPeer) : Told r (r'.drop name reason) :=
  Outcome.tells_dropped hclient hpeer List.not_mem_nil name
    (hes.trans (Counters.enters_drop _ name).posts) harrived

/-- The outcome of a message that fans out tells what succeeded. -/
theorem FansOut.told {a : ActiveInterface} {payload : Bytes} {result : Receipt × Relay}
    (h : FansOut net t a payload r result) : Told r result := by
  have hattempts : result.1.attempts.count true = result.1.sent.countP (·.accepted) := by
    rw [Receipt.attempts, List.count, List.countP_map]
    exact List.countP_congr fun x _ => by simp
  have hdrops := h.drops_eq
  rw [Told, h.outcome_eq]
  split
  · next hnone =>
    refine ⟨List.count_eq_zero.1 (hattempts.trans hnone), a.property.name, fun other => ?_⟩
    simpa [hnone, eq_comm] using hdrops other
  · next hsome =>
    refine ⟨Nat.one_le_iff_ne_zero.2 hsome, hattempts, fun name => ?_⟩
    simpa [hsome] using hdrops name

theorem told_sendReply {name : String} {client : Option String}
    (harrival : Enters (.replyReceived name client) r.counters r'.counters) (index : Int)
    (server peer : V6Address) (inner : Bytes) :
    Told r (r'.sendReply net name index server peer client inner) := by
  unfold sendReply
  dsimp only
  split
  · refine ⟨rfl, Outcome.drops_eq_of_posts
      (.cons harrival (enters_noteDelivered _ name client server).posts) ?_⟩
    simp [Entry.activity]
  · exact Outcome.tells_dropped (by decide) (by decide) (by simp [Receipt.attempts]) name
      (harrival.posts.trans (Counters.enters_drop _ name).posts)
      (List.forall_mem_singleton.2 (.inr rfl))

/-- Whatever becomes of a datagram, the outcome tells it. -/
theorem told_receive (net : Network) (t : Tracker) (r : Relay) (d : Datagram) :
    Told r (r.receive net t d) := by
  have hend := handled_receive net t r d
  generalize r.receive net t d = result at hend
  cases hend with
  | ignored | unknownPeer => exact ⟨rfl, rfl⟩
  | @notActive name => exact told_drop (.nil _) nofun name (by decide) (by decide)
  | @client a m =>
    exact (fansOut_sendUpstream (enters_noteClient r a.property.name d.source m)).told
  | @hopLimit a =>
    exact told_drop (enters_notePeer r a.property.name d.source).posts
      (List.forall_mem_singleton.2 (.inl rfl)) a.property.name (by decide) (by decide)
  | @forward a => exact (fansOut_sendUpstream (enters_notePeer r a.property.name d.source)).told
  | @egressNotActive _ inner name =>
    exact told_drop (enters_noteReply r name (replyClient? inner)).posts
      (List.forall_mem_singleton.2 (.inr rfl)) name (by decide) (by decide)
  | @reply _ inner name =>
    exact told_sendReply (enters_noteReply r name (replyClient? inner)) _ _ _ _

end

end Relay

end V6

/-! ## Both relays -/

/-- In both relays, whatever state they are in, whatever datagram arrives and whichever attempts
fail, the outcome tells what was attempted with success, what is counted as dropped, and when
nothing changed. -/
theorem Outcome.tells_receive :
    (∀ (net : V4.Network) (t : Tracker) (r : V4.Relay) (d : V4.Datagram),
      (r.receive net t d).1.outcome.Tells V4.Relay.counters (r.receive net t d).1.attempts r
        (r.receive net t d).2) ∧
    ∀ (net : V6.Network) (t : Tracker) (r : V6.Relay) (d : V6.Datagram),
      (r.receive net t d).1.outcome.Tells V6.Relay.counters (r.receive net t d).1.attempts r
        (r.receive net t d).2 :=
  ⟨V4.Relay.told_receive, V6.Relay.told_receive⟩

end DhcpRelay
