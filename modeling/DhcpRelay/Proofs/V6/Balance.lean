import DhcpRelay.Proofs.V6.Journal
import DhcpRelay.Proofs.V6.ReturnPath

/-!
# The DHCPv6 counters balance

What is counted for the servers of an interface is counted on the interface, and it is what was sent
and delivered there. Not every message tells whose it is, so what is counted for clients is part of
what is counted on interfaces (`Relay.interfaces_balance_servers_bound_clients`).
-/

namespace DhcpRelay.V6.Relay

/-- After any run without a deletion, with names of interfaces without colons: on every interface as
many messages were sent as were counted for its servers, and as the network took of messages that
arrived there; as many replies were delivered as were counted for its servers, and as went out
there. What is counted for clients is no more than what is counted on interfaces. And all drops are
counted but those of replies to unknown peers. -/
theorem interfaces_balance_servers_bound_clients (ins : List Input) (h : ∀ i ∈ ins, i.Plain)
    (hkept : ∀ name, .deleteInterface name ∉ ins) :
    let c := (({} : Relay).run ins).counters
    (∀ name, c.ofInterface name (·.serverTx) = c.ofServersOf name (·.requests) ∧
      c.ofInterface name (·.serverTx) = tally (Input.relayedOn name) ins) ∧
    (∀ name, c.ofInterface name (·.clientTx) = c.ofServersOf name (·.responses) ∧
      c.ofInterface name (·.clientTx) = tally (Input.deliveredOn name) ins) ∧
    c.clients.total (·.clientRequests) ≤ c.interfaces.total (·.clientRx) ∧
    c.clients.total (·.serverRequests) ≤ c.interfaces.total (·.serverTx) ∧
    c.clients.total (·.serverResponses) ≤ c.interfaces.total (·.serverRx) ∧
    c.clients.total (·.clientResponses) ≤ c.interfaces.total (·.clientTx) ∧
    c.interfaces.total (·.drops) = tally Input.drops ins := by
  intro c
  obtain ⟨journal, hjournal⟩ := exists_audit ins
  have hservers := hjournal.servers h
  have hbook := hjournal.book hkept
  refine ⟨fun name => ⟨?_, ?_⟩, fun name => ⟨?_, ?_⟩, hbook.clients_le .requestReceived,
    hbook.clients_le .requestSent, hbook.clients_le .replyReceived, hbook.clients_le .replySent, ?_⟩
  · exact hbook.ofInterface_eq_ofServersOf hservers (.inl rfl) name
  · exact (hbook.ofInterface_eq .requestSent name).trans (hjournal.relayed name)
  · exact hbook.ofInterface_eq_ofServersOf hservers (.inr rfl) name
  · exact (hbook.ofInterface_eq .replySent name).trans (hjournal.delivered name)
  · exact (hbook.interfaces_eq .dropped).trans hjournal.drops

/-! ## An exchange -/

/-- A network that takes nothing. -/
def closedNetwork : Network := ⟨fun _ _ => false⟩

/-- A client that tells its hardware address asks for servers on the second link. -/
def identifiedSolicit : Datagram :=
  ⟨2, sharedAddress, [1, 0, 0, 2, 0, 1, 0, 10, 0, 3, 0, 1, 2, 0, 0, 0, 0, 9]⟩

/-- A client on the first link gets an answer, and the message of one on the second link is lost. -/
def exchange : List Input :=
  [.createInterface "eth0", .datagram openNetwork twoLinks (solicitOn 1),
    .datagram openNetwork twoLinks replyDatagram,
    .datagram closedNetwork twoLinks identifiedSolicit]

/-- The interfaces of both links have plain names. -/
theorem plainNames_twoLinks : twoLinks.PlainNames := by
  have hall : ∀ e ∈ twoLinks.props.byIndex.entries, ':' ∉ e.2.name.toList := by decide +kernel
  exact fun index p hp => hall (index, p) (SortedTable.get?_eq_some_iff.1 hp)

/-- The counters of the exchange. Of two messages one tells whose it is. -/
theorem counters_of_exchange :
    let c := (({} : Relay).run exchange).counters
    (∀ i ∈ exchange, i.Plain) ∧ (∀ name, .deleteInterface name ∉ exchange) ∧
      c.ofServersOf "eth0" (·.requests) = 1 ∧ tally (Input.relayedOn "eth0") exchange = 1 ∧
      c.ofServersOf "eth0" (·.responses) = 1 ∧ tally (Input.deliveredOn "eth0") exchange = 1 ∧
      c.clients.total (·.clientRequests) = 1 ∧ c.interfaces.total (·.clientRx) = 2 ∧
      tally Input.drops exchange = 1 := by
  intro c
  have hplain : ∀ i ∈ exchange, i.Plain := by
    simp only [exchange, List.forall_mem_cons]
    exact ⟨trivial, plainNames_twoLinks, plainNames_twoLinks, plainNames_twoLinks, nofun⟩
  have hkept : ∀ name, .deleteInterface name ∉ exchange := by simp [exchange]
  obtain ⟨hsent, hdelivered, -, -, -, -, hdrops⟩ :=
    interfaces_balance_servers_bound_clients exchange hplain hkept
  -- the records of the interfaces are evaluated, and what they are equal to follows
  have hinterfaces : c.interfaces = ((∅ : SortedTable String InterfaceRecord).insert "eth0"
      { name := "eth0", clientRx := 1, clientTx := 1, serverRx := 1, serverTx := 1 }).insert "eth1"
      { name := "eth1", drops := 1, clientRx := 1 } := by
    decide +kernel
  have hserverTx : c.ofInterface "eth0" (·.serverTx) = 1 := by
    rw [Counters.ofInterface, hinterfaces]
    rfl
  have hclientTx : c.ofInterface "eth0" (·.clientTx) = 1 := by
    rw [Counters.ofInterface, hinterfaces]
    rfl
  refine ⟨hplain, hkept, (hsent "eth0").1.symm.trans hserverTx,
    (hsent "eth0").2.symm.trans hserverTx, (hdelivered "eth0").1.symm.trans hclientTx,
    (hdelivered "eth0").2.symm.trans hclientTx, ?_, ?_, hdrops.symm.trans ?_⟩
  · decide +kernel
  · rw [hinterfaces]
    rfl
  · rw [hinterfaces]
    rfl

end DhcpRelay.V6.Relay
