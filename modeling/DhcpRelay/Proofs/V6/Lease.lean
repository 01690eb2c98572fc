import DhcpRelay.Proofs.V6.Journal
import DhcpRelay.Proofs.V6.MessageLayout
import DhcpRelay.Proofs.V6.ReturnPath

/-!
# Leases

The address that a message leases stands two levels down: in the options of an association, behind
a header whose size depends on the kind of association, and there in the first address
(`DhcpOption.Leases`). The address that is read from the options of a message is that one, whatever
other options there are and however either list ends (`DhcpOption.leaseAddress?_eq_some_iff`). The
client is the one whose Ethernet address the first client identifier holds, with or without a time
stamp in front of it (`duidEther?_eq_some_iff`).

A relay notes such an address in the record of the client that the message names: of a request that
it takes, as the one asked for, and of what is inside a reply for a known peer, as the one offered
or accepted. It notes it before anything is sent, so what comes of the sending does not matter
(`Relay.Notes`).
-/

namespace DhcpRelay

/-! ## Addresses in records -/

/-- What a client's record has addresses for. -/
inductive LeaseStage where
  | requested
  | offered
  | accepted
  deriving DecidableEq, Repr

/-- The given address at one stage and nothing at the others. -/
def LeaseStage.only {α : Type} (stage : LeaseStage) (a : α) (other : LeaseStage) : Option α :=
  if other = stage then some a else none

/-- The address in a client's record, in text. -/
def ClientRecord.addressAt {σ : Type} (r : ClientRecord σ) : LeaseStage → String
  | .requested => r.requestedIp
  | .offered => r.offeredIp
  | .accepted => r.acceptedIp

/-- The address that is recorded for a client, in text; without a record it is empty. -/
def Counters.addressAt {σ : Type} (c : Counters σ) (client : String) (stage : LeaseStage) :
    String :=
  ((c.clients.get? client).map (·.addressAt stage)).getD ""

namespace V6

/-! ## What a message leases -/

namespace DhcpOption

/-- The octets hold options of which the first address is the given one. What stands behind the
address, in its option and behind it, does not matter. -/
def HoldsAddress (body : Bytes) (a : V6Address) : Prop :=
  ∃ options rest more, body = encodeAll options ++ rest ∧
    IsFirst ⟨iaAddressCode, a.octets.toList ++ more⟩ options

/-- The options lease the address: it is in the first association for lasting addresses, behind 12
octets, or, without such an association, in the first one for temporary addresses, behind 4. -/
inductive Leases (options : List DhcpOption) (a : V6Address) : Prop where
  | lasting {header body : Bytes} (hfirst : IsFirst ⟨iaNaCode, header ++ body⟩ options)
    (hheader : header.length = 12) (haddress : HoldsAddress body a)
  | temporary {header body : Bytes} (hnone : ∀ o ∈ options, o.code ≠ iaNaCode)
    (hfirst : IsFirst ⟨iaTaCode, header ++ body⟩ options) (hheader : header.length = 4)
    (haddress : HoldsAddress body a)

section
variable {body : Bytes} {options : List DhcpOption} {o : DhcpOption} {a : V6Address}

/-- The first address that octets hold is in the first option for an address that is read from
them. -/
theorem holdsAddress_iff (hfits : body.length ≤ 65535) : HoldsAddress body a ↔
    ∃ o more, find? (parseAll body) iaAddressCode = some o ∧ o.data = a.octets.toList ++ more := by
  simp only [find?_eq_some_iff]
  constructor
  · rintro ⟨options, rest, more, rfl, hfirst⟩
    -- What is inside something that fits the length field fits it.
    have hinside : ∀ o ∈ options, o.data.length < 65536 := fun o ho => by
      have hlength := length_data_le ho
      rw [List.length_append] at hfits
      omega
    rw [parseAll_encodeAll_append hinside]
    exact ⟨_, more, ⟨rfl, hfirst.append _⟩, rfl⟩
  · rintro ⟨⟨code, data⟩, more, ⟨rfl, hfirst⟩, rfl⟩
    obtain ⟨-, rest, hbody, -⟩ := holds_parseAll body
    exact ⟨_, rest, more, hbody, hfirst⟩

/-- Sixteen octets are those of the address. -/
theorem exists_ofList?_iff {octets : Bytes} :
    (∃ o, Octets.ofList? 16 octets = some o ∧ V6Address.mk o = a) ↔ octets = a.octets.toList := by
  simp only [Octets.ofList?_eq_some_iff]
  constructor
  · rintro ⟨o, rfl, rfl⟩
    rfl
  · exact fun h => ⟨a.octets, h, rfl⟩

/-- An association has the address that its options hold behind a header of the size that belongs to
its code. -/
theorem iaAddress?_eq_some_iff {size : Nat} (hsize : iaHeaderSize? o.code = some size)
    (hfits : o.data.length ≤ 65535) : o.iaAddress? = some a ↔
      ∃ header body, o.data = header ++ body ∧ header.length = size ∧ HoldsAddress body a := by
  simp only [iaAddress?, hsize, Option.bind_eq_bind, Option.bind_some, Option.bind_eq_some_iff,
    Option.pure_def, Option.some.injEq, Prod.exists, Bytes.split?_eq_some_iff, exists_ofList?_iff]
  constructor
  · rintro ⟨header, body, ⟨hdata, hheader⟩, found, hfound, octets, more, ⟨hmore, -⟩, rfl⟩
    rw [hdata, List.length_append] at hfits
    exact ⟨header, body, hdata, hheader,
      (holdsAddress_iff (by omega)).2 ⟨found, more, hfound, hmore⟩⟩
  · rintro ⟨header, body, hdata, hheader, haddress⟩
    rw [hdata, List.length_append] at hfits
    obtain ⟨found, more, hfound, hmore⟩ := (holdsAddress_iff (by omega)).1 haddress
    exact ⟨header, body, ⟨hdata, hheader⟩, found, hfound, _, more, ⟨hmore, a.octets.length_toList⟩,
      rfl⟩

/-- The address that is read from options that fit the length field is the one that they lease. -/
theorem leaseAddress?_eq_some_iff (hfits : ∀ o ∈ options, o.data.length ≤ 65535) :
    leaseAddress? options = some a ↔ Leases options a := by
  unfold leaseAddress?
  constructor
  · intro h
    split at h
    · next ia hia =>
      obtain ⟨code, data⟩ := ia
      obtain ⟨rfl, hfirst⟩ := find?_eq_some_iff.1 hia
      obtain ⟨header, body, rfl, hheader, haddress⟩ :=
        (iaAddress?_eq_some_iff rfl (hfits _ hfirst.mem)).1 h
      exact .lasting hfirst hheader haddress
    · next hnone =>
      obtain ⟨⟨code, data⟩, hia, h⟩ := Option.bind_eq_some_iff.1 h
      obtain ⟨rfl, hfirst⟩ := find?_eq_some_iff.1 hia
      obtain ⟨header, body, rfl, hheader, haddress⟩ :=
        (iaAddress?_eq_some_iff rfl (hfits _ hfirst.mem)).1 h
      exact .temporary (find?_eq_none_iff.1 hnone) hfirst hheader haddress
  · rintro (⟨hfirst, hheader, haddress⟩ | ⟨hnone, hfirst, hheader, haddress⟩)
    · rw [find?_eq_some_iff.2 ⟨rfl, hfirst⟩]
      exact (iaAddress?_eq_some_iff rfl (hfits _ hfirst.mem)).2 ⟨_, _, rfl, hheader, haddress⟩
    · rw [find?_eq_none_iff.2 hnone, find?_eq_some_iff.2 ⟨rfl, hfirst⟩]
      exact (iaAddress?_eq_some_iff rfl (hfits _ hfirst.mem)).2 ⟨_, _, rfl, hheader, haddress⟩

end

end DhcpOption

/-! ## Who is meant -/

/-- The client identifier holds the Ethernet address: one of type 1 behind a time stamp of four
octets, one of type 3 without it, both of hardware type 1. What stands behind the address does not
matter. -/
inductive HoldsEther : Bytes → HardwareAddress → Prop where
  | stamped {time rest : Bytes} {e : HardwareAddress} (htime : time.length = 4) :
      HoldsEther (0 :: 1 :: 0 :: 1 :: (time ++ (e.octets.toList ++ rest))) e
  | unstamped {rest : Bytes} {e : HardwareAddress} :
      HoldsEther (0 :: 3 :: 0 :: 1 :: (e.octets.toList ++ rest)) e

section
variable {duid body : Bytes} {e : HardwareAddress}

/-- Octets have the Ethernet address at their front. -/
theorem bind_split?_six_iff :
    ((Bytes.split? 6 body).bind fun x => (Octets.ofList? 6 x.1).bind fun o => some (.mk o)) =
      some e ↔ ∃ rest, body = e.octets.toList ++ rest := by
  simp only [Option.bind_eq_some_iff, Prod.exists, Bytes.split?_eq_some_iff,
    Octets.ofList?_eq_some_iff, Option.some.injEq]
  constructor
  · rintro ⟨octets, rest, ⟨rfl, -⟩, o, rfl, rfl⟩
    exact ⟨rest, rfl⟩
  · rintro ⟨rest, rfl⟩
    exact ⟨_, rest, ⟨rfl, e.octets.length_toList⟩, e.octets, rfl, rfl⟩

/-- The Ethernet address that is read from a client identifier is the one that it holds. -/
theorem duidEther?_eq_some_iff : duidEther? duid = some e ↔ HoldsEther duid e := by
  simp only [duidEther?, Option.bind_eq_bind, Option.bind_eq_some_iff, Bytes.split?_eq_some_iff,
    Prod.exists, Option.pure_def]
  constructor
  · rintro ⟨type, _, ⟨rfl, -⟩, hardware, body, ⟨rfl, -⟩, _, hguard, h⟩
    have hhardware : hardware = [0, 1] := by
      by_contra hne
      simp [hne] at hguard
    subst hhardware
    split at h
    · next htype =>
      obtain ⟨_, htaken, hread⟩ := Option.bind_eq_some_iff.1 h
      obtain ⟨⟨time, _⟩, hsplit, rfl⟩ := Option.map_eq_some_iff.1 htaken
      obtain ⟨rfl, htime⟩ := Bytes.split?_eq_some_iff.1 hsplit
      obtain ⟨rest, rfl⟩ := bind_split?_six_iff.1 hread
      rw [htype]
      exact .stamped htime
    · split at h
      · next htype =>
        obtain ⟨rest, rfl⟩ := bind_split?_six_iff.1 h
        rw [htype]
        exact .unstamped
      · cases h
  · rintro (@⟨time, rest, _, htime⟩ | @⟨rest⟩)
    · refine ⟨[0, 1], _, ⟨rfl, rfl⟩, [0, 1], time ++ (_ ++ rest), ⟨rfl, rfl⟩, (), rfl, ?_⟩
      rw [if_pos rfl, Bytes.split?_eq_some_iff.2 ⟨rfl, htime⟩]
      exact bind_split?_six_iff.2 ⟨rest, rfl⟩
    · refine ⟨[0, 3], _, ⟨rfl, rfl⟩, [0, 1], _, ⟨rfl, rfl⟩, (), rfl, ?_⟩
      rw [if_neg (by decide), if_pos rfl]
      exact bind_split?_six_iff.2 ⟨rest, rfl⟩

-- A time stamp in front and one octet behind.
example : duidEther? [0, 1, 0, 1, 9, 9, 9, 9, 0x00, 0x11, 0x22, 0x33, 0x44, 0x55, 7] =
    some ⟨⟨[0x00, 0x11, 0x22, 0x33, 0x44, 0x55], rfl⟩⟩ := by decide

end

namespace DhcpOption

/-- The first client identifier among the options yields the Ethernet address. -/
def Identify (options : List DhcpOption) (e : HardwareAddress) : Prop :=
  ∃ duid, IsFirst ⟨clientIdCode, duid⟩ options ∧ duidEther? duid = some e

end DhcpOption

namespace ClientMessage

section
variable {m : ClientMessage} {options : List DhcpOption} {body : Bytes}

/-- A header in front of options is read with these. -/
theorem parse_header (h : DhcpOption.Holds body options) (type x₂ x₁ x₀ : UInt8) :
    parse (type :: x₂ :: x₁ :: x₀ :: body) = .ok ⟨type, ⟨[x₂, x₁, x₀], rfl⟩, options⟩ := by
  rw [parse, h.parseAll_eq]

/-- A message has the Ethernet address that its options yield. -/
theorem ether?_eq_some_iff {e : HardwareAddress} : m.ether? = some e ↔
    DhcpOption.Identify m.options e := by
  simp only [ether?, Option.bind_eq_bind, Option.bind_eq_some_iff, DhcpOption.find?_eq_some_iff,
    DhcpOption.Identify]
  constructor
  · rintro ⟨⟨code, duid⟩, ⟨rfl, hfirst⟩, he⟩
    exact ⟨duid, hfirst, he⟩
  · rintro ⟨duid, hfirst, he⟩
    exact ⟨_, ⟨rfl, hfirst⟩, he⟩

end

/-- The address that a message from a client asks for. -/
def asked? (m : ClientMessage) : LeaseStage → Option V6Address
  | .requested => if m.type = MessageType.request.code then m.leaseAddress? else none
  | .offered | .accepted => none

/-- The address that a message from a server offers or accepts. -/
def granted? (m : ClientMessage) : LeaseStage → Option V6Address
  | .requested => none
  | .offered => if m.type = MessageType.advertise.code then m.leaseAddress? else none
  | .accepted => if m.type = MessageType.reply.code then m.leaseAddress? else none

section
variable {m : ClientMessage} {a : V6Address}

/-- A request asks for the address that it leases. -/
theorem asked?_of_request (htype : m.type = MessageType.request.code)
    (hlease : m.leaseAddress? = some a) : m.asked? = LeaseStage.requested.only a := by
  funext stage
  cases stage <;> simp [asked?, LeaseStage.only, htype, hlease]

/-- An advertisement offers the address that it leases. -/
theorem granted?_of_advertise (htype : m.type = MessageType.advertise.code)
    (hlease : m.leaseAddress? = some a) : m.granted? = LeaseStage.offered.only a := by
  funext stage
  cases stage <;> simp [granted?, LeaseStage.only, htype, hlease, MessageType.code]

/-- A reply accepts the address that it leases. -/
theorem granted?_of_reply (htype : m.type = MessageType.reply.code)
    (hlease : m.leaseAddress? = some a) : m.granted? = LeaseStage.accepted.only a := by
  funext stage
  cases stage <;> simp [granted?, LeaseStage.only, htype, hlease, MessageType.code]

end

end ClientMessage

namespace Relay

/-! ## What is noted -/

/-- Only the record of the client changes, if there is one, and in it an address only for what there
is a new one for. -/
structure Notes (client : Option String) (news : LeaseStage → Option V6Address)
    (c c' : Counters Sightings) : Prop where
  own {name : String} (h : client = some name) : ∃ r, c'.clients.get? name = some r ∧
    ∀ stage, r.addressAt stage = ((news stage).map V6Address.text).getD (c.addressAt name stage)
  others {name : String} (h : client ≠ some name) : c'.clients.get? name = c.clients.get? name

namespace Notes

variable {client : Option String} {news : LeaseStage → Option V6Address}
  {c c' c'' : Counters Sightings} {f : ClientRecord Sightings → ClientRecord Sightings}

/-- Without a client nothing is noted. -/
theorem of_none (hclients : c'.clients = c.clients) : Notes none news c c' where
  own := nofun
  others _ := by rw [hclients]

/-- A change of the client's record notes what it makes of the addresses in it. -/
theorem of_onClient {client : String} (hclients : c'.clients = (c.onClient client f).clients)
    (hf : ∀ r stage, (f r).addressAt stage =
      ((news stage).map V6Address.text).getD (r.addressAt stage)) :
    Notes (some client) news c c' where
  own {name} h := by
    obtain rfl := Option.some.inj h
    refine ⟨_, by rw [hclients, Counters.onClient, SortedTable.get?_upsert, if_pos rfl],
      fun stage => ?_⟩
    rw [hf, Counters.addressAt]
    cases c.clients.get? client with
    | none => cases stage <;> rfl
    | some r => rfl
  others {name} h := by
    have hname : name ≠ client := fun hname => h (congrArg some hname.symm)
    rw [hclients, Counters.onClient, SortedTable.get?_upsert, if_neg hname]

/-- What is changed afterwards without any new address does not matter. -/
theorem trans (h : Notes client news c c') (h' : Notes client (fun _ => none) c' c'') :
    Notes client news c c'' where
  own {name} hname := by
    obtain ⟨r, hr, haddress⟩ := h.own hname
    obtain ⟨r', hr', haddress'⟩ := h'.own hname
    refine ⟨r', hr', fun stage => ?_⟩
    rw [haddress' stage, Counters.addressAt, hr]
    exact haddress stage
  others hname := (h'.others hname).trans (h.others hname)

/-- The other counters do not matter. -/
theorem congr (h : Notes client news c c') (hclients : c''.clients = c'.clients) :
    Notes client news c c'' where
  own := hclients ▸ h.own
  others := hclients ▸ h.others

end Notes

section
variable {net : Network} {t : Tracker} {r : Relay} {d : Datagram} {a : ActiveInterface}
  {m : ClientMessage} {client : Option String} {news : LeaseStage → Option V6Address}
  {c : Counters Sightings}

/-- A client's message is noted with the address that it asks for. -/
theorem notes_noteClient (r : Relay) (name : String) (peer : V6Address) (m : ClientMessage) :
    Notes (m.ether?.map HardwareAddress.text) m.asked? r.counters
      (r.noteClient name peer m).counters := by
  unfold noteClient
  cases m.ether?.map HardwareAddress.text with
  | none => exact .of_none rfl
  | some client =>
    refine .of_onClient rfl fun c stage => ?_
    cases stage with
    | requested =>
      simp only [ClientRecord.addressAt, ClientMessage.asked?]
      split <;> rfl
    | offered => rfl
    | accepted => rfl

/-- A reply is noted with the address that the message inside offers or accepts. -/
theorem notes_noteReply (r : Relay) (name : String) (client : Option String) (m : ClientMessage) :
    Notes client m.granted? r.counters
      (r.noteReply name (client.map fun client => (client, m))).counters := by
  cases client with
  | none => exact .of_none rfl
  | some client =>
    refine .of_onClient rfl fun c stage => ?_
    cases stage with
    | requested => rfl
    | offered | accepted =>
      simp only [ClientRecord.addressAt, ClientMessage.granted?]
      split <;> rfl

/-- A message that was sent to a server is counted without any new address. -/
theorem notes_noteSent (c : Counters Sightings) (name : String) (client : Option String)
    (server : String) : Notes client (fun _ => none) c (noteSent name client c server) := by
  cases client with
  | none => exact .of_none rfl
  | some client => exact .of_onClient rfl fun c stage => by cases stage <;> rfl

/-- A reply that was delivered is counted without any new address. -/
theorem notes_noteDelivered (c : Counters Sightings) (name : String) (client : Option String)
    (server : V6Address) :
    Notes client (fun _ => none) c (noteDelivered name client server c) := by
  cases client with
  | none => exact .of_none rfl
  | some client => exact .of_onClient rfl fun c stage => by cases stage <;> rfl

/-- Messages that were sent to servers do not change what was noted before. -/
theorem Notes.foldl_noteSent {c' : Counters Sightings} (h : Notes client news c c') (name : String)
    (servers : List String) : Notes client news c (servers.foldl (noteSent name client) c') := by
  induction servers generalizing c' with
  | nil => exact h
  | cons server servers ih => exact ih (h.trans (notes_noteSent c' name client server))

/-- Sending to the servers does not change what was noted before, whatever is reached. -/
theorem Notes.sendUpstream (h : Notes client news c r.counters) (net : Network) (t : Tracker)
    (a : ActiveInterface) (payload : Bytes) :
    Notes client news c (r.sendUpstream net t a client payload).2.counters := by
  have hsent := h.foldl_noteSent a.property.name (reached net t a payload)
  rw [sendUpstream_eq]
  dsimp only
  split
  · exact hsent.congr rfl
  · exact hsent

/-- Sending the message inside a reply does not change what was noted before, whether it is
delivered or not. -/
theorem Notes.sendReply (h : Notes client news c r.counters) (net : Network) (name : String)
    (index : Int) (server peer : V6Address) (inner : Bytes) :
    Notes client news c (r.sendReply net name index server peer client inner).2.counters := by
  unfold Relay.sendReply
  dsimp only
  split
  · exact h.trans (notes_noteDelivered r.counters name client server)
  · exact h.congr rfl

/-- The client of what is inside a reply is the one that it names, unless it is for a relay. -/
theorem replyClient?_of_parse {inner : Bytes} (hparse : ClientMessage.parse inner = .ok m)
    (htype : MessageType.isRelayMessage m.type = false) :
    replyClient? inner = (m.ether?.map HardwareAddress.text).map fun client => (client, m) := by
  have hhead : inner.head? = some m.type := by
    unfold ClientMessage.parse at hparse
    split at hparse
    · obtain rfl := Except.ok.inj hparse
      rfl
    · cases hparse
  simp only [replyClient?, hhead, hparse, htype, Except.toOption, Option.all_some, Bool.not_false,
    guard_true, Option.bind_eq_bind, Option.pure_def, Option.bind_some]
  cases m.ether? <;> rfl

/-- A client's message that can be read, on an active interface, is noted with the address that it
asks for, whatever comes of it. -/
theorem notes_receive_of_client (hactive : t.activeAt? d.ingress = some a)
    (hclient : isClientMessage d.payload) (hparse : ClientMessage.parse d.payload = .ok m) :
    Notes (m.ether?.map HardwareAddress.text) m.asked? r.counters
      (r.receive net t d).2.counters := by
  rw [receive_of_client hactive hclient hparse]
  exact (notes_noteClient r a.property.name d.source m).sendUpstream net t a _

/-- A message inside a reply for a known peer is noted with the address that it offers or accepts,
whatever comes of it. -/
theorem notes_receive_of_reply {relay : RelayMessage} {inner : Bytes} {ingress name : String}
    (hreply : IsReply d.payload relay inner) (hingress : ingressName? t d.ingress = some ingress)
    (hpeer : r.peers.get? relay.peerAddress = some name)
    (hparse : ClientMessage.parse inner = .ok m)
    (htype : MessageType.isRelayMessage m.type = false) :
    Notes (m.ether?.map HardwareAddress.text) m.granted? r.counters
      (r.receive net t d).2.counters := by
  have hnoted := notes_noteReply r name (m.ether?.map HardwareAddress.text) m
  have hclient := replyClient?_of_parse hparse htype
  rw [← hclient] at hnoted
  cases hegress : t.activeNamed? name with
  | none =>
    rw [receive_of_reply_not_active hreply hingress hpeer hegress]
    exact hnoted.congr rfl
  | some egress =>
    have hname : (replyClient? inner).map (·.1) = m.ether?.map HardwareAddress.text := by
      rw [hclient]
      cases m.ether? <;> rfl
    rw [receive_of_reply hreply hingress hpeer hegress, hname]
    exact hnoted.sendReply net name egress.property.index d.source relay.peerAddress inner

/-! ## What is recorded -/

/-- Only the record changes of the client that the options identify, and of its addresses only the
one at the stage, which is now the given one. -/
structure Records (options : List DhcpOption) (stage : LeaseStage) (a : V6Address)
    (c c' : Counters Sightings) : Prop where
  own {e : HardwareAddress} (h : DhcpOption.Identify options e) :
    ∃ r, c'.clients.get? e.text = some r ∧ r.addressAt stage = a.text ∧
      ∀ other, other ≠ stage → r.addressAt other = c.addressAt e.text other
  others {name : String} (h : ∀ e, DhcpOption.Identify options e → e.text ≠ name) :
    c'.clients.get? name = c.clients.get? name

/-- What is noted of a message with one address is recorded for the client that it identifies. -/
theorem Notes.records {c' : Counters Sightings} {stage : LeaseStage} {a : V6Address}
    (h : Notes (m.ether?.map HardwareAddress.text) (stage.only a) c c') :
    Records m.options stage a c c' where
  own {e} he := by
    have hclient : m.ether?.map HardwareAddress.text = some e.text := by
      rw [ClientMessage.ether?_eq_some_iff.2 he, Option.map_some]
    obtain ⟨r, hr, haddress⟩ := h.own hclient
    refine ⟨r, hr, ?_, fun other hother => ?_⟩
    · rw [haddress, LeaseStage.only, if_pos rfl]
      rfl
    · rw [haddress, LeaseStage.only, if_neg hother]
      rfl
  others {name} hname := by
    refine h.others fun hclient => ?_
    obtain ⟨e, he, htext⟩ := Option.map_eq_some_iff.1 hclient
    exact hname e (ClientMessage.ether?_eq_some_iff.1 he) htext

/-- A message whose options lease an address is read with that address, whatever octets its header
has, whatever options stand before, between and behind, and however the options and those of the
association end. If it is a request that arrives on an active interface, then the address is
recorded as requested for the client that the first client identifier yields; and if it is inside a
reply, on an interface that is known and for a peer that is known, then an advertisement's is
recorded as offered and a reply's as accepted. No other address of that client and nothing of any
other client is changed by these, whatever comes of the message. -/
theorem lease_recorded {body : Bytes} {options : List DhcpOption} {a : V6Address}
    (hholds : DhcpOption.Holds body options) (hleases : DhcpOption.Leases options a)
    (type x₂ x₁ x₀ : UInt8) :
    let message : Bytes := type :: x₂ :: x₁ :: x₀ :: body
    (∃ m, ClientMessage.parse message = .ok m ∧ m.leaseAddress? = some a) ∧
    ∀ (net : Network) (t : Tracker) (r : Relay) (d : Datagram),
      let r' := (r.receive net t d).2
      (type = MessageType.request.code → d.payload = message →
        (∃ active, t.activeAt? d.ingress = some active) →
        Records options .requested a r.counters r'.counters) ∧
      ∀ relay, IsReply d.payload relay message →
        (∃ ingress, ingressName? t d.ingress = some ingress) →
        (∃ name, r.peers.get? relay.peerAddress = some name) →
        (type = MessageType.advertise.code → Records options .offered a r.counters r'.counters) ∧
        (type = MessageType.reply.code → Records options .accepted a r.counters r'.counters) := by
  intro message
  have hparse := ClientMessage.parse_header hholds type x₂ x₁ x₀
  generalize hm : (⟨type, ⟨[x₂, x₁, x₀], rfl⟩, options⟩ : ClientMessage) = m at hparse
  have hlease : m.leaseAddress? = some a := by
    rw [← hm]
    exact (DhcpOption.leaseAddress?_eq_some_iff hholds.1).2 hleases
  obtain rfl : m.type = type := by rw [← hm]
  obtain rfl : m.options = options := by rw [← hm]
  refine ⟨⟨m, hparse, hlease⟩, fun net t r d => ⟨?request, ?reply⟩⟩
  case request =>
    rintro htype hpayload ⟨active, hactive⟩
    have hclient : isClientMessage d.payload := by
      rw [hpayload, isClientMessage, messageType?, List.head?_cons, htype]
      rfl
    have hnotes : Notes (m.ether?.map HardwareAddress.text) m.asked? r.counters
        (r.receive net t d).2.counters :=
      notes_receive_of_client hactive hclient (by rw [hpayload, hparse])
    rw [ClientMessage.asked?_of_request htype hlease] at hnotes
    exact hnotes.records
  case reply =>
    rintro relay hreply ⟨ingress, hingress⟩ ⟨name, hpeer⟩
    have hnotes (h : MessageType.isRelayMessage m.type = false) :
        Notes (m.ether?.map HardwareAddress.text) m.granted? r.counters
          (r.receive net t d).2.counters :=
      notes_receive_of_reply hreply hingress hpeer hparse h
    constructor
    · intro htype
      rw [htype, ClientMessage.granted?_of_advertise htype hlease] at hnotes
      exact (hnotes rfl).records
    · intro htype
      rw [htype, ClientMessage.granted?_of_reply htype hlease] at hnotes
      exact (hnotes rfl).records

end

/-! ## A lease -/

/-- The hardware address of a client. -/
def leaseClient : HardwareAddress := ⟨⟨[0x00, 0x11, 0x22, 0x33, 0x44, 0x55], rfl⟩⟩

/-- The options of an association: one of another code, an address with its lifetimes, and another
address. -/
def associationOptions : List DhcpOption :=
  [⟨13, [0, 0]⟩, ⟨5, (globalAddress 7).octets.toList ++ [0, 0, 14, 16, 0, 0, 28, 32]⟩,
    ⟨5, (globalAddress 8).octets.toList⟩]

/-- Options with that association behind an empty one for temporary addresses. An option of those of
the association is cut short. -/
def leaseOptions : List DhcpOption :=
  [⟨4, []⟩, ⟨3, List.replicate 12 1 ++ (DhcpOption.encodeAll associationOptions ++ [0, 5, 0])⟩,
    ⟨1, [0, 3, 0, 1] ++ leaseClient.octets.toList⟩, ⟨3, []⟩]

/-- The options in octets, and behind them one that is cut short. -/
def leaseBody : Bytes := DhcpOption.encodeAll leaseOptions ++ [0, 3, 0, 9, 1]

/-- A client asks for the address on the first link. -/
def leaseRequest : Datagram := ⟨1, sharedAddress, 3 :: 0 :: 0 :: 1 :: leaseBody⟩

/-- The message in which a server accepts it, for the client. -/
def leaseReply : RelayMessage :=
  (RelayMessage.forward 1 (globalAddress 1) sharedAddress leaseRequest.payload).answer
    (7 :: 0 :: 0 :: 1 :: leaseBody)

/-- The address that is asked for and accepted stands in the client's record. -/
theorem lease_recorded_on_twoLinks :
    let asked := (({} : Relay).receive openNetwork twoLinks leaseRequest).2
    let accepted := (asked.receive openNetwork twoLinks ⟨2, globalAddress 0, leaseReply.encode⟩).2
    ∃ c, accepted.counters.clients.get? "00:11:22:33:44:55" = some c ∧
      c.requestedIp = "2001:db8:0:7::1" ∧ c.acceptedIp = "2001:db8:0:7::1" ∧ c.offeredIp = "" := by
  intro asked accepted
  have hholds : DhcpOption.Holds leaseBody leaseOptions :=
    ⟨by decide, _, rfl, .short (by decide)⟩
  have hleases : DhcpOption.Leases leaseOptions (globalAddress 7) :=
    .lasting ⟨[⟨4, []⟩], _, rfl, by decide⟩ (by decide)
      ⟨associationOptions, _, _, rfl, [⟨13, [0, 0]⟩], _, rfl, by decide⟩
  have hclient : DhcpOption.Identify leaseOptions leaseClient :=
    ⟨_, ⟨leaseOptions.take 2, _, rfl, by decide⟩,
      duidEther?_eq_some_iff.2 (@HoldsEther.unstamped [] leaseClient)⟩
  have hreply : IsReply leaseReply.encode leaseReply (7 :: 0 :: 0 :: 1 :: leaseBody) :=
    ⟨by decide, RelayMessage.parse_encode_answer _ (by decide), rfl, by decide⟩
  have hactive : ∃ active, twoLinks.activeAt? leaseRequest.ingress = some active :=
    Option.isSome_iff_exists.1 (by decide +kernel)
  have hingress : ∃ ingress, ingressName? twoLinks 2 = some ingress :=
    Option.isSome_iff_exists.1 (by decide +kernel)
  have hpeer : ∃ name, asked.peers.get? leaseReply.peerAddress = some name :=
    Option.isSome_iff_exists.1 (by decide +kernel)
  have hrequested : Records leaseOptions .requested (globalAddress 7) ({} : Relay).counters
      asked.counters :=
    ((lease_recorded hholds hleases 3 0 0 1).2 openNetwork twoLinks {} leaseRequest).1 rfl rfl
      hactive
  have haccepted : Records leaseOptions .accepted (globalAddress 7) asked.counters
      accepted.counters :=
    (((lease_recorded hholds hleases 7 0 0 1).2 openNetwork twoLinks asked
      ⟨2, globalAddress 0, leaseReply.encode⟩).2 leaseReply hreply hingress hpeer).2 rfl
  obtain ⟨c, hc, hrequest, hothers⟩ := hrequested.own hclient
  obtain ⟨c', hc', haccept, hothers'⟩ := haccepted.own hclient
  have htext : (globalAddress 7).text = "2001:db8:0:7::1" := by decide +kernel
  have hname : leaseClient.text = "00:11:22:33:44:55" := by decide +kernel
  have hbefore (stage : LeaseStage) :
      asked.counters.addressAt leaseClient.text stage = c.addressAt stage := by
    rw [Counters.addressAt, hc]
    rfl
  rw [hname] at hc'
  refine ⟨c', hc', ?_, haccept.trans htext, ?_⟩
  · show c'.addressAt .requested = _
    rw [hothers' .requested nofun, hbefore, hrequest, htext]
  · show c'.addressAt .offered = _
    rw [hothers' .offered nofun, hbefore, hothers .offered nofun]
    rfl

end Relay

end V6

end DhcpRelay
