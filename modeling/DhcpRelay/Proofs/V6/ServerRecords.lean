import DhcpRelay.Proofs.Address.RoundTrip
import DhcpRelay.Proofs.V6.Journal
import DhcpRelay.Proofs.V6.ReturnPath
import DhcpRelay.Validation

/-!
# Requests and replies on one record

What is sent to a server is counted under the text of its configuration, and what comes back under
the printed form of the address it came from. Any spelling that is read as an address may be
configured, and one record holds both counts only if the text is the printed form
(`Relay.same_record_iff_printed`): for each other spelling there are two records, one for the
requests and one for the replies.
-/

namespace DhcpRelay.V6.Relay

open Counters (Entry)

/-! ## What is observed -/

/-- The transmissions to the server with the given address that were accepted of a message that
arrived on the interface called `name`, as far as the server is configured under the given text. -/
def requestsTo (name text : String) (a : V6Address) (t : Tracker) (d : Datagram)
    (receipt : Receipt) : Nat :=
  if ArrivesOn name t d then
    (receipt.sent.zip (serverTexts t d)).countP fun x =>
      x.1.accepted && x.1.destination.address = a && x.2 = text
  else 0

namespace Input

/-- The messages that the server with the given address was sent under the given text, if they
arrived on the interface called `name`. -/
def requestsTo (name text : String) (a : V6Address) (r : Relay) : Input → Nat
  | datagram net t d => Relay.requestsTo name text a t d (r.receive net t d).1
  | createInterface .. | deleteInterface .. => 0

/-- Whether a reply from the given address was delivered on the interface called `name`. -/
def repliesFrom (name : String) (a : V6Address) (r : Relay) : Input → Nat
  | datagram net t d => if d.source = a then Relay.deliveredOn name (r.receive net t d).1 else 0
  | createInterface .. | deleteInterface .. => 0

end Input

/-! ## Texts and addresses -/

section
variable {net : Network} {t : Tracker} {r : Relay} {d : Datagram} {config : InterfaceConfig}
  {text name : String} {a : V6Address}

/-- The text of a group on an upstream interface is not read as an address. -/
theorem parse?_groupText (name : String) :
    V6Address.parse? (V6Address.allRelayAgentsAndServers.text ++ "%" ++ name) = none := by
  refine Option.eq_none_iff_forall_ne_some.2 fun a ha => ?_
  have hchar : AddressChar '%' := (V6Address.of_parse? ha).2 '%' (by simp)
  exact absurd hchar (by decide)

/-- A destination whose text is read as an address is the server there. -/
theorem of_mem_destinations {x : Destination × String} (hx : x ∈ destinations t config)
    (ha : V6Address.parse? x.2 = some a) : x.2 ∈ config.servers ∧ x.1 = ⟨a, serverPort, 0⟩ := by
  rcases List.mem_append.1 hx with h | h
  · obtain ⟨server, hserver, hdestination⟩ := List.mem_filterMap.1 h
    obtain ⟨a', ha', rfl⟩ := Option.map_eq_some_iff.1 hdestination
    obtain rfl := Option.some.inj (ha'.symm.trans ha)
    exact ⟨hserver, rfl⟩
  · obtain ⟨upstream, -, hdestination⟩ := List.mem_filterMap.1 h
    obtain ⟨p, -, rfl⟩ := Option.map_eq_some_iff.1 hdestination
    cases (parse?_groupText upstream).symm.trans ha

/-- What is sent beside a text that is read as an address goes to that address. -/
theorem address_of_mem_zip_serverTexts (harrives : ArrivesOn name t d) {x : Transmission × String}
    (hx : x ∈ (r.receive net t d).1.sent.zip (serverTexts t d))
    (ha : V6Address.parse? x.2 = some a) : x.1.destination.address = a := by
  have hattempt : ∀ {active payload}, x ∈ attempts net t active payload →
      x.1.destination.address = a := by
    intro active payload hx
    obtain ⟨n, hn, rfl⟩ := List.mem_mapIdx.1 hx
    rw [(of_mem_destinations (List.getElem_mem hn) ha).2]
  have hnothing : ∀ {texts : List String}, x ∉ ([] : List Transmission).zip texts := by simp
  have hend := handled_receive net t r d
  generalize r.receive net t d = result at hx hend
  cases hend with
  | ignored | notActive | hopLimit | unknownPeer | egressNotActive => exact absurd hx hnothing
  | client hactive =>
    rw [sent_sendUpstream, zip_serverTexts hactive] at hx
    exact hattempt hx
  | forward hactive =>
    rw [sent_sendUpstream, zip_serverTexts hactive] at hx
    exact hattempt hx
  | reply hreply => exact absurd hreply.type_eq harrives.2

/-- What is counted under a text that is read as an address is what is sent to that address under
the text. -/
theorem requestsTo_eq_relayedTo (ha : V6Address.parse? text = some a) (name : String) :
    Input.requestsTo name text a = Input.relayedTo name text := by
  funext r i
  cases i with
  | createInterface | deleteInterface => rfl
  | datagram net t d =>
    simp only [Input.requestsTo, Relay.requestsTo, Input.relayedTo, Relay.relayedTo]
    split
    · next harrives =>
      refine List.countP_congr fun x hx => ?_
      have haddress := address_of_mem_zip_serverTexts harrives hx (a := a)
      simp only [Bool.and_eq_true, decide_eq_true_eq]
      constructor
      · rintro ⟨⟨haccepted, -⟩, htext⟩
        exact ⟨haccepted, htext⟩
      · rintro ⟨haccepted, rfl⟩
        exact ⟨⟨haccepted, haddress ha⟩, rfl⟩
    · rfl

/-- What is counted under the printed form of an address is what comes from that address. -/
theorem repliesFrom_eq_deliveredFrom (name : String) (a : V6Address) :
    Input.repliesFrom name a = Input.deliveredFrom name a.text := by
  funext r i
  cases i with
  | createInterface | deleteInterface => rfl
  | datagram net t d =>
    have hsame : d.source.text = a.text ↔ d.source = a :=
      ⟨V6Address.text_injective, congrArg V6Address.text⟩
    simp only [Input.repliesFrom, Input.deliveredFrom, Relay.deliveredFrom, hsame]

end

/-! ## Records -/

section
variable {journal : List Entry} {ins : List Input} {name text : String} {a : V6Address}

/-- Under the key of a text without underscores the replies are counted that come from an address
with this printed form, and no others. -/
theorem Audit.responses_eq (h : Audit ins journal) (name : String) (htext : '_' ∉ text.toList) :
    (({} : Relay).run ins).counters.atKey (serverKey name text) (·.responses) =
      tally (Input.deliveredFrom name text) ins := by
  refine (h.keys.atKey_eq .replySent _).trans ?_
  rw [← h.deliveredFrom]
  refine List.countP_congr fun e he => ?_
  simp only [decide_eq_true_eq, and_congr_right_iff]
  intro hreply
  obtain ⟨source, hsource⟩ := h.replies e he hreply
  rw [Entry.key?, hsource, Option.map_some, Option.some.injEq, Option.some.injEq]
  constructor
  · intro hkey
    exact separates_of_no_underscore source.underscore_notMem_text htext hkey
  · rintro ⟨rfl, rfl⟩
    rfl

/-- Under the key of a server at least what is sent to it is counted. -/
theorem Audit.relayedTo_le (h : Audit ins journal) (name text : String) :
    tally (Input.relayedTo name text) ins ≤
      (({} : Relay).run ins).counters.atKey (serverKey name text) (·.requests) := by
  refine le_of_le_of_eq ?_ (h.keys.atKey_eq .requestSent _).symm
  rw [← h.relayedTo]
  refine List.countP_mono_left fun e _ he => ?_
  simp only [decide_eq_true_eq] at he ⊢
  obtain ⟨hsent, rfl, hserver⟩ := he
  exact ⟨hsent, by rw [Entry.key?, hserver, Option.map_some]⟩

/-- On an interface without a colon in its name nothing else is counted there. -/
theorem Audit.requests_eq (h : Audit ins journal) (hname : ':' ∉ name.toList)
    (htext : '_' ∉ text.toList) :
    (({} : Relay).run ins).counters.atKey (serverKey name text) (·.requests) =
      tally (Input.relayedTo name text) ins := by
  refine (h.keys.atKey_eq .requestSent _).trans ?_
  rw [← h.relayedTo]
  refine List.countP_congr fun e he => ?_
  simp only [decide_eq_true_eq, and_congr_right_iff, Entry.key?, Option.map_eq_some_iff]
  intro hsent
  constructor
  · rintro ⟨server, hserver, hkey⟩
    obtain ⟨hinterface, rfl⟩ :=
      serverKey_inj_of_plain hname htext (h.names e he server hserver) hkey.symm
    exact ⟨hinterface.symm, hserver⟩
  · rintro ⟨rfl, hserver⟩
    exact ⟨text, hserver, rfl⟩

/-- No reply is counted under a spelling of an address that is not its printed form. -/
theorem tally_deliveredFrom_eq_zero (ha : V6Address.parse? text = some a) (hne : text ≠ a.text)
    (name : String) (ins : List Input) : tally (Input.deliveredFrom name text) ins = 0 := by
  refine History.tally_eq_zero (fun r i => ?_) _ ins
  cases i with
  | createInterface | deleteInterface => rfl
  | datagram net t d =>
    refine if_neg fun hsource => hne ?_
    have hprinted := V6Address.parse?_text d.source
    rw [hsource, ha] at hprinted
    rw [← hsource, Option.some.inj hprinted]

/-- A record that counts something is there. -/
theorem exists_record {σ : Type} {c : Counters σ} {name text : String} {f : ServerRecord → Nat}
    {n : Nat} (hpos : 0 < n) (hn : n ≤ c.atKey (serverKey name text) f) :
    ∃ record, c.server? name text = some record ∧
      f record = c.atKey (serverKey name text) f := by
  unfold Counters.atKey at hn ⊢
  rw [Counters.server?]
  cases hrecord : c.servers.get? (serverKey name text) with
  | none =>
    rw [hrecord, Option.map_none, Option.getD_none] at hn
    omega
  | some record => exact ⟨record, rfl, rfl⟩

/-- After any run in which messages that arrived on an interface went to a server, configured under
a text that is read as its address, and replies from that address were delivered on the interface:
the record under the text counts the requests, the record under the printed form of the address
counts the replies, and they are one record exactly if the text is the printed form. Under another
spelling no reply is ever counted. Nothing but those requests is counted with them unless the name
of the interface has a colon. -/
theorem same_record_iff_printed (ins : List Input) (name : String)
    (ha : V6Address.parse? text = some a) (hasked : 0 < tally (Input.requestsTo name text a) ins)
    (hanswered : 0 < tally (Input.repliesFrom name a) ins) :
    let c := (({} : Relay).run ins).counters
    ∃ asked answered, c.server? name text = some asked ∧ c.server? name a.text = some answered ∧
      tally (Input.requestsTo name text a) ins ≤ asked.requests ∧
      (':' ∉ name.toList → asked.requests = tally (Input.requestsTo name text a) ins) ∧
      answered.responses = tally (Input.repliesFrom name a) ins ∧
      (asked = answered ↔ text = a.text) ∧
      (text ≠ a.text → asked.responses = 0) := by
  intro c
  obtain ⟨journal, hjournal⟩ := exists_audit ins
  have htext : '_' ∉ text.toList := fun h =>
    absurd ((V6Address.of_parse? ha).2 '_' h) (by decide)
  have hresponses := hjournal.responses_eq name a.underscore_notMem_text
  rw [requestsTo_eq_relayedTo ha] at hasked ⊢
  rw [repliesFrom_eq_deliveredFrom] at hanswered ⊢
  have hle := hjournal.relayedTo_le name text
  obtain ⟨asked, hrecord, hrequests⟩ := exists_record hasked hle
  obtain ⟨answered, hrecord', hreplies⟩ := exists_record hanswered (Nat.le_of_eq hresponses.symm)
  refine ⟨asked, answered, hrecord, hrecord', le_of_le_of_eq hle hrequests.symm,
    fun hname => hrequests.trans (hjournal.requests_eq hname htext), hreplies.trans hresponses,
    ⟨fun hsame => ?_, fun hsame => ?_⟩, fun hne => ?_⟩
  · -- the records stand under their own keys
    have hkey : serverKey name text = serverKey name a.text := by
      rw [← hjournal.keys.keyed _ asked hrecord, ← hjournal.keys.keyed _ answered hrecord', hsame]
    exact (separates_of_no_underscore htext a.underscore_notMem_text hkey).2
  · subst hsame
    exact Option.some.inj (hrecord.symm.trans hrecord')
  · have hnone := hjournal.responses_eq name htext
    rw [tally_deliveredFrom_eq_zero ha hne] at hnone
    rw [Counters.atKey, ← Counters.server?, hrecord] at hnone
    exact hnone

end

/-! ## A server in capital letters -/

/-- The configuration of an interface with one server, whose address is written in capital letters.
-/
def capitalConfig : InterfaceConfig :=
  { name := "eth0", enable := true, servers := ["2001:DB8::1"] }

/-- A tracker with one active interface of this configuration. -/
def capitalLink : Tracker :=
  ((({} : Tracker).setGlobal (.enabled 32)).setInterface capitalConfig).interfaceCreated .v6
    (linkProperty 1 "eth0" 1)

/-- A client asks for servers, and the answer comes. -/
def capitalExchange : List Datagram := [solicitOn 1, { replyDatagram with ingress := 1 }]

/-- The text is read as the address of the server. -/
theorem parse?_capital : V6Address.parse? "2001:DB8::1" = some (globalAddress 0) := by
  decide +kernel

/-- The message went to the server. -/
theorem tally_requestsTo_capitalExchange :
    tally (Input.requestsTo "eth0" "2001:DB8::1" (globalAddress 0))
      (capitalExchange.map (.datagram openNetwork capitalLink)) = 1 := by
  decide +kernel

/-- The answer was delivered. -/
theorem tally_repliesFrom_capitalExchange :
    tally (Input.repliesFrom "eth0" (globalAddress 0))
      (capitalExchange.map (.datagram openNetwork capitalLink)) = 1 := by
  decide +kernel

/-- Request and reply are counted on two records. -/
theorem records_capitalExchange :
    let c := (({} : Relay).run (capitalExchange.map (.datagram openNetwork capitalLink))).counters
    ∃ asked answered, c.server? "eth0" "2001:DB8::1" = some asked ∧
      c.server? "eth0" "2001:db8::1" = some answered ∧ asked ≠ answered ∧
      asked.requests = 1 ∧ asked.responses = 0 ∧ answered.responses = 1 := by
  have hprinted : (globalAddress 0).text = "2001:db8::1" := by decide +kernel
  have hne : "2001:DB8::1" ≠ (globalAddress 0).text := by decide +kernel
  obtain ⟨asked, answered, hasked, hanswered, -, hrequests, hresponses, hsame, hnone⟩ :=
    same_record_iff_printed (capitalExchange.map (.datagram openNetwork capitalLink)) "eth0"
      parse?_capital (tally_requestsTo_capitalExchange ▸ Nat.one_pos)
      (tally_repliesFrom_capitalExchange ▸ Nat.one_pos)
  rw [tally_requestsTo_capitalExchange] at hrequests
  rw [tally_repliesFrom_capitalExchange] at hresponses
  exact ⟨asked, answered, hasked, hprinted ▸ hanswered, fun h => hne (hsame.1 h),
    hrequests (by decide), hnone hne, hresponses⟩

/-- Requests to a server and its replies are not always counted on one record, although the
configuration is valid and does not change. -/
theorem requests_and_replies_on_two_records :
    ¬ ∀ (net : Network) (t : Tracker) (config : InterfaceConfig) (text : String) (a : V6Address)
        (ds : List Datagram),
      t.validateInterface .v6 config = .ok () → t.configs.get? config.name = some config →
      text ∈ config.servers → V6Address.parse? text = some a →
      let ins := ds.map (.datagram net t)
      0 < tally (Input.requestsTo config.name text a) ins →
      0 < tally (Input.repliesFrom config.name a) ins →
      ∃ k record, (({} : Relay).run ins).counters.servers.get? k = some record ∧
        record.requests = tally (Input.requestsTo config.name text a) ins ∧
        record.responses = tally (Input.repliesFrom config.name a) ins := by
  intro h
  obtain ⟨k, record, hrecord, hrequests, hresponses⟩ := h openNetwork capitalLink capitalConfig
    "2001:DB8::1" (globalAddress 0) capitalExchange (by rfl) (by decide +kernel) (by decide)
    parse?_capital (tally_requestsTo_capitalExchange ▸ Nat.one_pos)
    (tally_repliesFrom_capitalExchange ▸ Nat.one_pos)
  have hservers : ∀ e ∈ (({} : Relay).run
      (capitalExchange.map (.datagram openNetwork capitalLink))).counters.servers.entries,
      e.2.requests = 0 ∨ e.2.responses = 0 := by
    decide +kernel
  have hzero : record.requests = 0 ∨ record.responses = 0 :=
    hservers (k, record) (SortedTable.get?_eq_some_iff.1 hrecord)
  have hone : record.requests = 1 := hrequests.trans tally_requestsTo_capitalExchange
  have hone' : record.responses = 1 := hresponses.trans tally_repliesFrom_capitalExchange
  omega

end DhcpRelay.V6.Relay
