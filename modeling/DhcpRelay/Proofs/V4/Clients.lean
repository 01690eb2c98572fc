import DhcpRelay.Proofs.Address.Hardware
import DhcpRelay.Proofs.V4.FanOut

/-!
# Clients told apart

A client is known by the text of its hardware address. Different addresses have different texts,
also if one is the beginning of the other, so what the relay keeps for a client is of that client
alone (`Relay.clients_told_apart`).

A datagram changes at most one record of a client and where one client was last seen, both for the
client of the packet that it is read as (`Relay.Touches.concerns`). A client has a record from its
first admitted request on (`Relay.isSome_get?_clients_run_iff`): a reply makes none, as it needs a
client that has been seen.
-/

namespace DhcpRelay.V4

open Interface (Property)

section
variable {p : Packet}

/-- Packets have the same key exactly if they have the same hardware address. -/
theorem Packet.clientKey_eq_colonHex_iff (h : p.hlen ≤ maxHardwareLen) {hardware : Bytes} :
    p.clientKey = hardware.colonHex ↔ p.chaddr.toList.take p.hlen.toNat = hardware := by
  rw [clientKey, hardwareOctets_eq h, Bytes.colonHex_injective.eq_iff]

end

namespace Relay

open Counters (Entry Enters Posts)

/-! ## Messages of one client -/

/-- A datagram that holds a packet of the client with the hardware address. -/
def Input.Concerns (hardware : Bytes) : Input → Prop
  | .datagram _ t d => ∃ ingress type p, Reads t d ingress type p ∧
      p.chaddr.toList.take p.hlen.toNat = hardware
  | _ => False

/-- A request of the client with the hardware address is admitted on the interface called `name`. -/
def Input.RequestsBy (hardware : Bytes) (name : String) : Input → Prop
  | .datagram _ t d => ∃ ingress active address type p,
      Admits t d ingress active address type p ∧
        p.chaddr.toList.take p.hlen.toNat = hardware ∧ ingress.name = name
  | _ => False

/-- The latest admitted request of the client with the hardware address arrived on the interface
called `name`. -/
def LatestRequestBy (hardware : Bytes) (name : String) : List Input → Prop :=
  History.Latest (·.RequestsBy hardware name) fun i => ∃ other, i.RequestsBy hardware other

/-- The input changes the record of the client under the key, or where that client was last seen. -/
def Touches (r : Relay) (i : Input) (key : String) : Prop :=
  (r.take i).counters.clients.get? key ≠ r.counters.clients.get? key ∨
    (r.take i).peers.get? key ≠ r.peers.get? key

/-- A datagram is noted for the client under the key: it is an admitted request of that client or an
expected reply to it. -/
def NotedFor (t : Tracker) (r : Relay) (d : Datagram) (key : String) : Prop :=
  (∃ ingress active address type p, Admits t d ingress active address type p ∧ p.clientKey = key) ∨
    ∃ ingress type p name, Expects t r d ingress type p name ∧ p.clientKey = key

section
variable {net : Network} {t : Tracker} {r : Relay} {d : Datagram} {ingress : Property}
  {active : ActiveInterface} {address : V4Address} {type : MessageType} {p : Packet} {i : Input}
  {hardware : Bytes} {key name : String}

/-- The key of a packet that is read is the text of the hardware address in it. -/
theorem Reads.clientKey_eq_colonHex_iff (h : Reads t d ingress type p) :
    p.clientKey = hardware.colonHex ↔ p.chaddr.toList.take p.hlen.toNat = hardware :=
  Packet.clientKey_eq_colonHex_iff (Packet.wellFormed_of_parse h.parse_eq).hlen_le

/-- The requests under a key are those of one hardware address. -/
theorem Input.requestsBy_iff (i : Input) :
    i.RequestsBy hardware name ↔ i.Requests hardware.colonHex name := by
  cases i with
  | datagram net t d =>
    constructor
    · rintro ⟨ingress, active, address, type, p, hadmits, hhardware, hname⟩
      exact ⟨ingress, active, address, type, p, hadmits,
        hadmits.clientKey_eq_colonHex_iff.2 hhardware, hname⟩
    · rintro ⟨ingress, active, address, type, p, hadmits, hkey, hname⟩
      exact ⟨ingress, active, address, type, p, hadmits,
        hadmits.clientKey_eq_colonHex_iff.1 hkey, hname⟩
  | openLink | closeLink | closeLinks | createInterface | deleteInterface => exact Iff.rfl

theorem latestRequestBy_iff (ins : List Input) :
    LatestRequestBy hardware name ins ↔ LatestRequest hardware.colonHex name ins := by
  simp only [LatestRequestBy, LatestRequest, Input.requestsBy_iff]

/-! ## What a datagram changes -/

theorem Admits.notedFor (h : Admits t d ingress active address type p) :
    NotedFor t r d p.clientKey :=
  .inl ⟨_, _, _, _, _, h, rfl⟩

theorem Expects.notedFor (h : Expects t r d ingress type p name) : NotedFor t r d p.clientKey :=
  .inr ⟨_, _, _, _, h, rfl⟩

/-- What is noted for a client is noted for the one whose packet the datagram holds. -/
theorem NotedFor.exists_reads (h : NotedFor t r d key) :
    ∃ ingress type p, Reads t d ingress type p ∧ p.clientKey = key := by
  obtain ⟨_, _, _, _, _, hadmits, hkey⟩ | ⟨_, _, _, _, hexpects, hkey⟩ := h
  · exact ⟨_, _, _, hadmits.toReads, hkey⟩
  · exact ⟨_, _, _, hexpects.toReads, hkey⟩

/-- Entries that concern one client alone are those of a datagram that is noted for that client. -/
theorem NotedFor.exists_posts {es : List Entry} {c : Counters Sightings}
    (h : NotedFor t r d p.clientKey) (hposts : Posts es r.counters c)
    (hes : ∀ e ∈ es, ∀ key, e.client? = some key → p.clientKey = key) :
    ∃ es, Posts es r.counters c ∧
      ∀ e ∈ es, ∀ key, e.client? = some key → NotedFor t r d key :=
  ⟨es, hposts, fun e he key hkey => hes e he key hkey ▸ h⟩

/-- What is counted of a datagram concerns no client but the one for which it is noted. -/
theorem exists_posts_receive (net : Network) (t : Tracker) (r : Relay) (d : Datagram) :
    ∃ es, Posts es r.counters (r.receive net t d).2.counters ∧
      ∀ e ∈ es, ∀ key, e.client? = some key → NotedFor t r d key := by
  have hend := handled_receive net t r d
  generalize r.receive net t d = result at hend
  cases hend with
  | ignored | unknownClient => exact ⟨[], .nil _, nofun⟩
  | @notActive ingress | @noAddress ingress | @hopLimit ingress =>
    exact ⟨_, (Counters.enters_drop _ ingress.name).posts, by simp [Entry.client?]⟩
  | @missingServerId ingress _ _ type p hadmits =>
    exact hadmits.notedFor.exists_posts (.cons (enters_noteRequest r ingress.name type p)
      (Counters.enters_drop _ ingress.name).posts) (by simp [Entry.client?])
  | @request ingress _ _ type p _ hadmits =>
    exact hadmits.notedFor.exists_posts
      (posts_sendToServers (enters_noteRequest r ingress.name type p))
      fun e he key hkey => Option.some.inj (Entry.client_eq_of_mem_sending he hkey)
  | @egressNotActive ingress type p name hexpects
  | @egressNoAddress ingress type p name _ hexpects =>
    exact hexpects.notedFor.exists_posts (.cons (enters_noteReply r ingress.name type p)
      (Counters.enters_drop _ name).posts) (by simp [Entry.client?])
  | @handleUnavailable _ _ _ name _ _ _ hexpects _ _ hhandle =>
    exact hexpects.notedFor.exists_posts (.cons (enters_of_handle_eq hhandle)
      (Counters.enters_drop _ name).posts) (by simp [Entry.client?])
  | @reply _ _ p name _ _ _ _ hexpects _ _ hhandle =>
    unfold sendReply
    split
    · exact hexpects.notedFor.exists_posts (.cons (enters_of_handle_eq hhandle)
        (enters_noteDelivered _ name p.clientKey d.source).posts) (by simp [Entry.client?])
    · exact hexpects.notedFor.exists_posts (.cons (enters_of_handle_eq hhandle)
        (Counters.enters_drop _ name).posts) (by simp [Entry.client?])

/-- An admitted request is counted as one for its client. -/
theorem Admits.exists_posts (h : Admits t d ingress active address type p) (net : Network)
    (r : Relay) : ∃ es, Posts (.requestReceived ingress.name (some p.clientKey) :: es) r.counters
      (r.receive net t d).2.counters := by
  rw [receive_of_admits h]
  cases hservers : servers? active.config type p with
  | none =>
    rw [relayRequest_of_unnamed h net r hservers]
    exact ⟨_, .cons (enters_noteRequest r ingress.name type p)
      (Counters.enters_drop _ ingress.name).posts⟩
  | some servers =>
    rw [relayRequest_of_admits h net r hservers]
    exact ⟨_, posts_sendToServers (enters_noteRequest r ingress.name type p)⟩

/-- A datagram changes the record of a client, or where a client was last seen, only if it is noted
for that client. -/
theorem notedFor_of_touches (h : r.Touches (.datagram net t d) key) : NotedFor t r d key := by
  rcases h with hrecord | hpeer
  · obtain ⟨es, hposts, hes⟩ := exists_posts_receive net t r d
    by_contra hnot
    exact hrecord (hposts.get?_clients_of_ne fun e he hkey => hnot (hes e he key hkey))
  · obtain ⟨ingress, active, address, type, p, hadmits, hpeers⟩ | ⟨-, hpeers⟩ :=
      peers_receive net t r d
    · by_contra hnot
      refine hpeer ?_
      rw [take, hpeers, SortedTable.get?_insert_eq, if_neg]
      rintro rfl
      exact hnot hadmits.notedFor
    · exact absurd (congrArg (·.get? key) hpeers) hpeer

/-- An input changes the record of a client, or where a client was last seen, only if it is a
datagram that holds a packet of the client, whose key is the text of its hardware address. -/
theorem Touches.concerns (h : r.Touches i key) :
    ∃ hardware, i.Concerns hardware ∧ key = hardware.colonHex := by
  cases i with
  | datagram net t d =>
    obtain ⟨ingress, type, p, hreads, rfl⟩ := (notedFor_of_touches h).exists_reads
    exact ⟨_, ⟨ingress, type, p, hreads, rfl⟩, hreads.clientKey_eq_colonHex_iff.2 rfl⟩
  | openLink net t index => simp [Touches, take] at h
  | closeLink | closeLinks | createInterface | deleteInterface =>
    simp [Touches, take, closeLink, closeLinks] at h

/-! ## Runs -/

/-- After one input more a client has a record if that input is an admitted request of the client or
if it had one before. A reply is expected only if its client was seen, and whoever was seen has a
record. -/
theorem isSome_get?_clients_take (hseen : (r.peers.get? key).isSome = true →
    (r.counters.clients.get? key).isSome = true) (i : Input) :
    ((r.take i).counters.clients.get? key).isSome = true ↔
      (∃ name, i.Requests key name) ∨ (r.counters.clients.get? key).isSome = true := by
  cases i with
  | datagram net t d =>
    show ((r.receive net t d).2.counters.clients.get? key).isSome = true ↔ _
    constructor
    · intro hafter
      obtain ⟨es, hposts, hes⟩ := exists_posts_receive net t r d
      obtain hbefore | ⟨e, he, hkey⟩ := (hposts.isSome_get?_clients_iff key).1 hafter
      · exact .inr hbefore
      · obtain ⟨_, _, _, _, _, hadmits, hclient⟩ | ⟨_, _, _, _, hexpects, rfl⟩ := hes e he key hkey
        · exact .inl ⟨_, _, _, _, _, _, hadmits, hclient, rfl⟩
        · exact .inr (hseen (Option.isSome_iff_exists.2 ⟨_, hexpects.peer_eq⟩))
    · rintro (⟨name, _, _, _, _, _, hadmits, rfl, -⟩ | hbefore)
      · obtain ⟨es, hposts⟩ := hadmits.exists_posts net r
        exact (hposts.isSome_get?_clients_iff _).2 (.inr ⟨_, List.mem_cons_self, rfl⟩)
      · obtain ⟨es, hposts, -⟩ := exists_posts_receive net t r d
        exact (hposts.isSome_get?_clients_iff key).2 (.inl hbefore)
  | openLink | closeLink | closeLinks | createInterface | deleteInterface =>
    simp [take, Input.Requests, closeLink, closeLinks]

/-- After a run of a new relay a client has a record exactly if a request of the client was
admitted. -/
theorem isSome_get?_clients_run_iff (ins : List Input) :
    ((({} : Relay).run ins).counters.clients.get? key).isSome = true ↔
      ∃ i ∈ ins, ∃ name, i.Requests key name := by
  induction ins using List.reverseRecOn with
  | nil => exact iff_of_false nofun nofun
  | append_singleton ins i ih =>
    have hseen (h : ((({} : Relay).run ins).peers.get? key).isSome = true) :
        ((({} : Relay).run ins).counters.clients.get? key).isSome = true := by
      obtain ⟨name, hname⟩ := Option.isSome_iff_exists.1 h
      obtain ⟨before, i, after, rfl, hrequests, -⟩ := (get?_peers_run_eq_some_iff ins).1 hname
      exact ih.2 ⟨i, by simp, name, hrequests⟩
    have hstep := isSome_get?_clients_take hseen i
    rw [ih] at hstep
    rw [run, List.foldl_append]
    refine hstep.trans ?_
    simp [or_and_right, exists_or, or_comm]

/-- Clients are told apart by their hardware addresses. Two packets whose hardware addresses fit the
field have the same key exactly if these are the same octets, however many there are. So two inputs
that change one record of a client, or where one client was last seen, hold packets with the same
hardware address. After any run a client was last seen where the latest admitted request with its
own hardware address arrived, it has a record exactly if there was such a request, and a reply that
is delivered goes to the interface of the latest such request.

An Ethernet address is read as itself from its text, which is also the key of packets with that
address. A text that does not consist of six parts with colons between them is no address. -/
theorem clients_told_apart :
    (∀ p q : Packet, p.hlen ≤ 16 → q.hlen ≤ 16 → (p.clientKey = q.clientKey ↔
      p.chaddr.toList.take p.hlen.toNat = q.chaddr.toList.take q.hlen.toNat)) ∧
    (∀ (r r' : Relay) (i i' : Input) (key : String), r.Touches i key → r'.Touches i' key →
      ∃ hardware, i.Concerns hardware ∧ i'.Concerns hardware) ∧
    (∀ ins : List Input,
      let r := ({} : Relay).run ins
      (∀ p : Packet, p.hlen ≤ 16 →
        let hardware := p.chaddr.toList.take p.hlen.toNat
        (∀ name, r.peers.get? p.clientKey = some name ↔ LatestRequestBy hardware name ins) ∧
        ((r.counters.clients.get? p.clientKey).isSome = true ↔
          ∃ i ∈ ins, ∃ name, i.RequestsBy hardware name)) ∧
      ∀ (net : Network) (t : Tracker) (d : Datagram) (name : String),
        (r.receive net t d).1.outcome = .delivered name →
        ∃ ingress type p, Reads t d ingress type p ∧
          LatestRequestBy (p.chaddr.toList.take p.hlen.toNat) name ins) ∧
    (∀ m : HardwareAddress, HardwareAddress.parse? m.text.toList = some m ∧
      ∀ p : Packet, p.hlen = 6 → p.chaddr.toList.take 6 = m.octets.toList →
        p.clientKey = m.text) ∧
    ∀ cs : List Char, (∀ parts, HardwareAddress.ColonSeparated cs parts → parts.length ≠ 6) →
      HardwareAddress.parse? cs = none := by
  have hkey {p : Packet} (hlen : p.hlen ≤ 16) :
      p.clientKey = Bytes.colonHex (p.chaddr.toList.take p.hlen.toNat) :=
    (Packet.clientKey_eq_colonHex_iff hlen).2 rfl
  refine ⟨?keys, ?touches, fun ins => ⟨fun p hlen => ⟨fun name => ?seen, ?record⟩, ?delivered⟩,
    fun m => ⟨HardwareAddress.parse?_text m, ?text⟩, fun cs => HardwareAddress.parse?_eq_none⟩
  case keys =>
    intro p q hp hq
    rw [hkey hq, Packet.clientKey_eq_colonHex_iff hp]
  case touches =>
    intro r r' i i' key h h'
    obtain ⟨hardware, hconcerns, hown⟩ := h.concerns
    obtain ⟨hardware', hconcerns', hown'⟩ := h'.concerns
    obtain rfl := Bytes.colonHex_injective (hown.symm.trans hown')
    exact ⟨hardware, hconcerns, hconcerns'⟩
  case seen =>
    rw [latestRequestBy_iff, ← hkey hlen]
    exact get?_peers_run_eq_some_iff ins
  case record =>
    rw [hkey hlen]
    simp only [Input.requestsBy_iff]
    exact isSome_get?_clients_run_iff ins
  case delivered =>
    intro net t d name hdelivered
    obtain ⟨ingress, type, p, _, _, _, hexpects, -⟩ := of_delivered hdelivered
    have hlen := (Packet.wellFormed_of_parse hexpects.parse_eq).hlen_le
    refine ⟨ingress, type, p, hexpects.toReads, ?_⟩
    rw [latestRequestBy_iff, ← hkey hlen]
    exact (get?_peers_run_eq_some_iff ins).1 hexpects.peer_eq
  case text =>
    intro p hlen hchaddr
    rw [hkey (by rw [hlen]; decide), hlen]
    exact congrArg Bytes.colonHex hchaddr

end

/-! ## An address that is the beginning of another -/

/-- The hardware address of the client that asks for an address. -/
def askingClient : HardwareAddress := ⟨⟨[2, 0, 0, 0, 0, 9], rfl⟩⟩

/-- A message with the first five octets of that address. -/
def shortenedPacket : Packet := { clientPacket .discover with hlen := 5 }

/-- The client asks. -/
def asking : Input := .datagram openNetwork oneLink (clientDatagram .discover)

/-- The client is offered an address. -/
def offering : Input := .datagram openNetwork oneLink offerDatagram

/-- The client that asked was seen and is offered an address. Nobody with the first five octets of
its hardware address was seen, and these are no address. -/
theorem clients_told_apart_shortened :
    let r := ({} : Relay).run beforeOffer
    (clientPacket .discover).clientKey = askingClient.text ∧
      shortenedPacket.clientKey ≠ askingClient.text ∧
      r.peers.get? askingClient.text = some "eth0" ∧
      (r.counters.clients.get? askingClient.text).isSome = true ∧
      r.peers.get? shortenedPacket.clientKey = none ∧
      (∃ hardware, asking.Concerns hardware ∧ offering.Concerns hardware) ∧
      (∃ ingress type p, Reads oneLink offerDatagram ingress type p ∧
        LatestRequestBy (p.chaddr.toList.take p.hlen.toNat) "eth0" beforeOffer) ∧
      HardwareAddress.parse? "02:00:00:00:00".toList = none := by
  dsimp only
  obtain ⟨hkeys, htouches, hruns, htext, hparse⟩ := clients_told_apart
  obtain ⟨hclients, hdelivered⟩ := hruns beforeOffer
  have hkey : (clientPacket .discover).clientKey = askingClient.text :=
    (htext askingClient).2 (clientPacket .discover) rfl rfl
  have hbefore : beforeOffer = [asking] := rfl
  have hrequest : asking.RequestsBy askingClient.octets.toList "eth0" :=
    ⟨_, _, _, _, _, admits_clientDatagram rfl, rfl, rfl⟩
  obtain ⟨hseen, hrecord⟩ := hclients (clientPacket .discover) (by decide)
  rw [hkey] at hseen hrecord
  refine ⟨hkey, fun hsame => ?_, (hseen "eth0").2 ⟨[], asking, [], hbefore, hrequest, nofun⟩,
    hrecord.2 ⟨asking, by simp [hbefore], "eth0", hrequest⟩, ?_, ?_, ?_, ?_⟩
  · have hprefix := (hkeys shortenedPacket (clientPacket .discover) (by decide) (by decide)).1
      (hsame.trans hkey.symm)
    exact absurd hprefix (by decide)
  · rw [Option.eq_none_iff_forall_ne_some]
    intro name hname
    obtain ⟨before, i, after, hins, hi, -⟩ :=
      ((hclients shortenedPacket (by decide)).1 name).1 hname
    obtain rfl : i = asking := List.mem_singleton.1 (hbefore ▸ hins ▸ by simp)
    obtain ⟨_, _, _, _, p, hadmits, hhardware, -⟩ := hi
    obtain ⟨-, -, -, -, rfl⟩ := (@admits_clientDatagram .discover rfl).unique hadmits
    exact absurd hhardware (by decide)
  · have hasked : ({} : Relay).Touches asking askingClient.text := .inl (by decide +kernel)
    have hoffered : (({} : Relay).run beforeOffer).Touches offering askingClient.text :=
      .inl (by decide +kernel)
    exact htouches _ _ _ _ _ hasked hoffered
  · exact hdelivered openNetwork oneLink offerDatagram "eth0" (by decide +kernel)
  · refine hparse _ fun parts hparts hsix => ?_
    have hlength := congrArg List.length
      (hparts.colonParts_eq (List.ne_nil_of_length_pos (by omega)))
    rw [hsix] at hlength
    exact absurd hlength (by decide)

end Relay

end DhcpRelay.V4
