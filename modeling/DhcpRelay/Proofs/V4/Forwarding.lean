import DhcpRelay.Proofs.Tracker.HopLimit
import DhcpRelay.Proofs.V4.Handling

/-!
# What a request holds when it goes on

A request goes on as it came in, with one hop more, the relay's address if no relay put its own in
before, and the options in order (`Relay.forwarded_eq`). It is well-formed, so the server reads it
as the relay made it, and finds in it what it would have found in the client's message: of each code
the relay keeps the option that a look-up finds (`Relay.option?_forwarded`). A second relay finds
the options in order and an address put in, so all that it changes is the number of hops
(`Relay.forwarded_forwarded`).
-/

namespace DhcpRelay.V4.Relay

open Interface (Property)

section
variable {t : Tracker} {address : V4Address} {type : MessageType} {p : Packet}

/-- A request that has passed fewer relays than the limit goes on with one hop more. -/
theorem forwarded_eq (address : V4Address) (type : MessageType) (h : p.hops < t.hopLimit) :
    forwarded address type p = { p with
      op := bootRequest
      hops := p.hops + 1
      giaddr := if p.giaddr = .unspecified then address else p.giaddr
      options := relayOptions type.code p.options } := by
  have hhops : p.hops ≠ 255 := by
    intro he
    have hlt := UInt8.lt_iff_toNat_lt.1 h
    have hle := UInt8.le_iff_toNat_le.1 t.hopLimit_le
    rw [he] at hlt
    exact absurd (hlt.trans_le hle) (by decide)
  simp [forwarded, Packet.relayed, hhops, V4Address.isUnspecified]

/-- A well-formed request stays so when it goes on. -/
theorem wellFormed_forwarded (address : V4Address) (type : MessageType) (h : p.WellFormed) :
    (forwarded address type p).WellFormed :=
  ⟨h.hlen_le, wellFormed_relayOptions h.options⟩

/-- A request that goes on has the type with which it is relayed. -/
theorem messageCode?_forwarded (address : V4Address) (type : MessageType) (p : Packet) :
    (forwarded address type p).messageCode? = some type.code := rfl

/-- Looking up another code in a request that goes on finds what it finds in the request. -/
theorem option?_forwarded (address : V4Address) (type : MessageType) (p : Packet) {code : UInt8}
    (h : code ≠ DhcpOption.messageTypeCode) :
    (forwarded address type p).option? code = p.option? code :=
  find?_relayOptions h

/-- An address is put into a request only where there is none. -/
theorem giaddr_forwarded_ne (type : MessageType) (p : Packet) (h : address ≠ .unspecified) :
    (forwarded address type p).giaddr ≠ .unspecified := by
  show (if p.giaddr.isUnspecified then address else p.giaddr) ≠ _
  split
  · exact h
  · next hgiaddr => simpa [V4Address.isUnspecified] using hgiaddr

/-- A request that has gone on with an address goes on once more with one hop more, and nothing else
changes. -/
theorem forwarded_forwarded (address' : V4Address) (haddress : address ≠ .unspecified)
    (h : (forwarded address type p).hops < t.hopLimit) :
    forwarded address' type (forwarded address type p) =
      { forwarded address type p with hops := (forwarded address type p).hops + 1 } := by
  rw [forwarded_eq address' type h, if_neg (giaddr_forwarded_ne type p haddress)]
  have hoptions : relayOptions type.code (forwarded address type p).options =
      (forwarded address type p).options := relayOptions_relayOptions _ _ _
  rw [hoptions]
  rfl

end

section
variable {net : Network} {t : Tracker} {r : Relay} {d : Datagram}

/-- A request goes on transparently. All transmissions carry the same octets. They are read as the
packet that was received, as a request, with one hop more, with the address of the interface where
no relay's address was in it, and with the message type and then the received options in their
order, but no other option of that code and none whose code stood before. What the server looks up
is what was received. If the interface has an address other than 0.0.0.0 and the octets arrive at
any other relay that sends them on, the number of hops is all that changes. -/
theorem request_transparent {x : Transmission} (hx : x ∈ (r.receive net t d).1.sent) :
    ∃ ingress active address type p q, Admits t d ingress active address type p ∧
      (∀ y ∈ (r.receive net t d).1.sent, y.payload = x.payload) ∧
      Packet.parse x.payload = .ok q ∧
      q = { p with
        op := 1
        hops := p.hops + 1
        giaddr := if p.giaddr = .unspecified then address else p.giaddr
        options := .messageType type.code :: (p.options.filter (·.code ≠ 53)).eraseDupsBy
          fun a b => a.code == b.code } ∧
      q.hops.toNat = p.hops.toNat + 1 ∧
      q.messageCode? = p.messageCode? ∧ q.serverId? = p.serverId? ∧
      q.requestedIp? = p.requestedIp? ∧
      (address ≠ .unspecified → ∀ (net' : Network) (t' : Tracker) (r' : Relay) (d' : Datagram),
        d'.payload = x.payload → ∀ y ∈ (r'.receive net' t' d').1.sent,
          y.payload = x.payload.set 3 (q.hops + 1)) := by
  obtain ⟨ingress, active, address, type, p, hadmits, hall⟩ := of_mem_sent hx
  have hpayload := hall x hx
  have heq := forwarded_eq address type hadmits.hops_lt
  have hparse : Packet.parse x.payload = .ok (forwarded address type p) := by
    rw [hpayload]
    exact Packet.parse_encode
      (wellFormed_forwarded address type (Packet.wellFormed_of_parse hadmits.parse_eq))
  refine ⟨ingress, active, address, type, p, forwarded address type p, hadmits,
    fun y hy => (hall y hy).trans hpayload.symm, hparse, ?_, ?_, ?_, ?_, ?_, ?_⟩
  · rw [heq, relayOptions_eq]
    rfl
  · rw [heq]
    exact Tracker.toNat_add_one hadmits.hops_lt
  · rw [messageCode?_forwarded, hadmits.type_eq]
  · rw [Packet.serverId?, option?_forwarded address type p (by decide)]
    rfl
  · rw [Packet.requestedIp?, option?_forwarded address type p (by decide)]
    rfl
  · intro haddress net' t' r' d' hd' y hy
    obtain ⟨ingress', active', address', type', p', hadmits', hall'⟩ := of_mem_sent hy
    -- The second relay reads what the first one made.
    have hparse' := hadmits'.parse_eq
    rw [hd', hparse] at hparse'
    obtain rfl := Except.ok.inj hparse'
    have hcode : type.code = type'.code := Option.some.inj hadmits'.type_eq
    obtain rfl : type' = type := by
      have htype := MessageType.ofCode?_eq_some_iff.2 hcode
      exact (Option.some.inj ((MessageType.ofCode?_code type).symm.trans htype)).symm
    rw [hall' y hy, forwarded_forwarded address' haddress hadmits'.hops_lt,
      Packet.encode_with_hops, hpayload]

end

/-! ## A client on a link -/

/-- The address of the interface on the client's link. -/
def linkAddress : V4Address := .of 192 168 1 1

/-- The interface on the client's link. -/
def linkProperty : Property :=
  { index := 2, name := "eth0", address := some (.v4 linkAddress), prefixLen := 24, up := true }

/-- The record of the interface, with two servers. -/
def linkConfig : InterfaceConfig :=
  { name := "eth0", enable := true, servers := ["10.0.0.2", "10.0.0.3"] }

/-- A tracker that has the interface only. -/
def oneLink : Tracker :=
  ((({} : Tracker).setGlobal (.enabled 4)).setInterface linkConfig).interfaceCreated .v4
    linkProperty

/-- A network that takes every transmission and opens every link. -/
def openNetwork : Network :=
  ⟨fun _ _ => true, fun _ _ _ => some ⟨⟨[2, 0, 0, 0, 0, 1], rfl⟩⟩, fun _ _ => true⟩

/-- A message of a client, with one option before the message type and two that stand twice. -/
def clientPacket (type : MessageType) : Packet :=
  { op := bootRequest, htype := 1, hlen := 6, hops := 0, xid := 7, secs := 0, flags := 0,
    ciaddr := .unspecified, yiaddr := .unspecified, siaddr := .unspecified,
    giaddr := .unspecified, chaddr := ⟨[2, 0, 0, 0, 0, 9, 0, 0, 0, 0, 0, 0, 0, 0, 0, 0], rfl⟩,
    sname := .replicate 64 0, file := .replicate 128 0,
    options := [⟨61, [1, 2]⟩, .messageType type.code, ⟨12, [97]⟩, ⟨61, [9, 9]⟩,
      .messageType type.code] }

/-- The message arrives on the interface. -/
def clientDatagram (type : MessageType) : Datagram :=
  ⟨2, .unspecified, (clientPacket type).encode⟩

/-- The message is admitted. -/
theorem admits_clientDatagram {type : MessageType} (h : type.isRequest = true) :
    Admits oneLink (clientDatagram type) linkProperty ⟨linkProperty, linkConfig⟩ linkAddress type
      (clientPacket type) where
  ingress_eq := by
    show oneLink.props.get? 2 = _
    decide +kernel
  parse_eq := Packet.parse_encode (by cases type <;> decide)
  type_eq := rfl
  isRequest := h
  active_eq := by decide +kernel
  address_eq := by decide
  hops_lt := by
    show 0 < oneLink.hopLimit
    decide

/-- What a server gets of a client that looks for servers, and what it gets after a second hop. -/
theorem discover_transparent :
    let x : Transmission :=
      ⟨⟨.of 10 0 0 2, 67⟩, (forwarded linkAddress .discover (clientPacket .discover)).encode, true⟩
    x ∈ (({} : Relay).receive openNetwork oneLink (clientDatagram .discover)).1.sent ∧
      ∃ q, Packet.parse x.payload = .ok q ∧ q.hops = 1 ∧ q.giaddr = linkAddress ∧
        q.options = [.messageType 1, ⟨61, [1, 2]⟩, ⟨12, [97]⟩] ∧
        let again := (({} : Relay).receive openNetwork oneLink ⟨2, linkAddress, x.payload⟩).1.sent
        again.length = 2 ∧ ∀ y ∈ again, y.payload = x.payload.set 3 2 := by
  intro x
  have hx : x ∈ (({} : Relay).receive openNetwork oneLink (clientDatagram .discover)).1.sent := by
    decide +kernel
  obtain ⟨ingress, active, address, type, p, q, hadmits, -, hparse, hq, -, -, -, -, hagain⟩ :=
    request_transparent hx
  obtain ⟨rfl, rfl, rfl, rfl, rfl⟩ := (admits_clientDatagram rfl).unique hadmits
  subst hq
  exact ⟨hx, _, hparse, rfl, rfl, by decide, by decide +kernel, hagain (by decide) _ _ _ _ rfl⟩

end DhcpRelay.V4.Relay
