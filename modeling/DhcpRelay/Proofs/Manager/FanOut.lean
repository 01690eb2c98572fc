import DhcpRelay.Proofs.Manager.Gating
import DhcpRelay.Proofs.Manager.Validation
import DhcpRelay.Proofs.V4.FanOut
import DhcpRelay.Proofs.V6.FanOut

/-!
# Where a manager's relays send a message

A relay passes over a server whose text is not an address (`V4.Relay.Admits.fansOut`), and a DHCPv6
relay tries an upstream interface as often as it is configured (`V6.Relay.GoesOn.fansOut`). Under a
manager it comes to neither: every record was validated before it was stored
(`RelayManager.validated_run`), and the records of active interfaces are stored ones
(`Tracker.WellFormed.allows_of_activeAt?`).
-/

namespace DhcpRelay

section
variable {t : Tracker} {family : Family} {i : Int} {a : ActiveInterface}

/-- The record of an active interface meets the rules that do not depend on the moment, if all that
is stored does. -/
theorem Tracker.WellFormed.allows_of_activeAt? (h : t.WellFormed) (hvalid : t.Validated family)
    (ha : t.activeAt? i = some a) : family.Allows a.config :=
  hvalid.records _ _ (h.stored_of_activeAt? ha).2

/-- No server is passed over if each is allowed. -/
theorem V4.Relay.readable_eq_self {c : InterfaceConfig} (h : Family.v4.Allows c) :
    readable c.servers = c.servers := by
  refine List.filter_eq_self.2 fun text htext => ?_
  obtain ⟨address, haddress⟩ := h.servers text htext
  rw [haddress]
  rfl

/-- No server is passed over if each is allowed. -/
theorem V6.Relay.readable_eq_self {c : InterfaceConfig} (h : Family.v6.Allows c) :
    readable c.servers = c.servers := by
  refine List.filter_eq_self.2 fun text htext => ?_
  obtain ⟨address, haddress, -⟩ := h.servers text htext
  rw [haddress]
  rfl

end

namespace RelayManager

open V6.Relay (GoesOn FansOut Tries linked)

/-- Whatever happens to a manager from the beginning, what it stores meets the rules. -/
theorem validated_run (ins : List Input) (family : Family) :
    ((start.run ins).tracker family).Validated family := by
  refine tracker_run_of_step Agent.validated_apply (fun family => ?_) ins family
  cases family <;> exact ⟨nofun, nofun⟩

/-- In whatever state a DHCPv6 relay is, a message that goes on fans out, whichever attempts fail:
it is sent to every server whose text is an address, in list order, and behind these to all servers
on the link of every upstream interface that has a link-local address, in list order, the same
octets to all; the outcome is the number of successes, or a drop that is counted once if there is
none, and each success is counted under the text of its own destination. At every point of a run of
a manager and the datagrams of its relays no server of an active interface is passed over, and no
upstream interface of it stands twice. -/
theorem messages_fan_out :
    (∀ (net : V6.Network) (t : Tracker) (r : V6.Relay) (d : V6.Datagram) (a : ActiveInterface)
      (f : V6.RelayMessage), GoesOn t d a f → FansOut net t a f.encode r (r.receive net t d)) ∧
    ∀ (ins : List Input) (net : V6.Network) (d : V6.Datagram) (a : ActiveInterface)
      (f : V6.RelayMessage),
      let m := start.run ins
      GoesOn m.v6.tracker d a f →
        Tries m.v6.tracker a.config.servers (linked m.v6.tracker a.config.upstreams)
            (m.v6.processor.relay.receive net m.v6.tracker d).1.sent ∧
          a.config.upstreams.Nodup := by
  refine ⟨fun net t r d a f h => h.fansOut net r, fun ins net d a f => ?_⟩
  intro m h
  have hallows : Family.v6.Allows a.config :=
    (wellFormed_run ins .v6).allows_of_activeAt? (validated_run ins .v6) h.activeAt?_eq
  have htries := (h.fansOut net m.v6.processor.relay).tries
  rw [V6.Relay.readable_eq_self hallows] at htries
  exact ⟨htries, hallows.upstreams_nodup rfl⟩

/-! ## A server that is configured twice -/

/-- An interface is configured with one server twice and with an upstream interface, and both come
up. -/
def doubledService : List Input :=
  [operation (.configure .v6 (.updateGlobal (.enabled 32))),
    operation (.notify { family := .v6, index := 2, name := "eth1", address := some "fe80::2/64",
                         change := .created true }),
    operation (.configure .v6 (.updateInterface
      { name := "eth0", enable := true, servers := ["2001:db8::1", "2001:db8::1"],
        upstreams := ["eth1"] })),
    operation (.notify { family := .v6, index := 1, name := "eth0",
                         address := some "2001:db8:0:1::1/64", change := .created true })]

/-- A network that does not take the first transmission. -/
def firstFails : V6.Network := ⟨fun n _ => n ≠ 0⟩

/-- The interface on which the client asks. -/
def doubledInterface : ActiveInterface where
  property := V6.Relay.linkProperty 1 "eth0" 1
  config :=
    { name := "eth0", enable := true, servers := ["2001:db8::1", "2001:db8::1"],
      upstreams := ["eth1"] }

/-- The client's message goes on. -/
theorem goesOn_solicitOn : GoesOn (start.run doubledService).v6.tracker (V6.Relay.solicitOn 1)
    doubledInterface (V6.Relay.clientForward doubledInterface (V6.Relay.solicitOn 1)) :=
  .client (by decide +kernel) (by decide) rfl

/-- The first attempt fails, the second goes to the same server, and the third to the link. The two
that succeed are counted under their own texts. -/
theorem messages_fan_out_doubledService :
    let m := start.run doubledService
    let result := m.v6.processor.relay.receive firstFails m.v6.tracker (V6.Relay.solicitOn 1)
    Tries m.v6.tracker ["2001:db8::1", "2001:db8::1"] ["eth1"] result.1.sent ∧
      result.1.sent.map (·.accepted) = [false, true, true] ∧
      result.1.outcome = .relayed 2 ∧
      result.2.counters.atKey (serverKey "eth0" "2001:db8::1") (·.requests) = 1 ∧
      result.2.counters.atKey (serverKey "eth0" "ff02::1:2%eth1") (·.requests) = 1 := by
  intro m result
  obtain ⟨hfans, htries⟩ := messages_fan_out
  have hfan := hfans firstFails _ m.v6.processor.relay _ _ _ goesOn_solicitOn
  have htried := (htries doubledService firstFails _ _ _ goesOn_solicitOn).1
  have hlinked : linked m.v6.tracker ["eth1"] = ["eth1"] := by decide +kernel
  have haccepted : result.1.sent.map (·.accepted) = [false, true, true] := by decide +kernel
  have hcount : result.1.sent.countP (·.accepted) = 2 := by decide +kernel
  have houtcome := hfan.outcome_eq
  have hserver := hfan.requests_eq "2001:db8::1"
  have hlink := hfan.requests_eq "ff02::1:2%eth1"
  refine ⟨hlinked ▸ htried, haccepted, ?_, ?_, ?_⟩
  · rw [houtcome, hcount]
    rfl
  · refine hserver.trans ?_
    decide +kernel
  · refine hlink.trans ?_
    decide +kernel

/-! ## Requests -/

/-- At every point of a run of a manager and the datagrams of its relays a DHCPv4 request that is
admitted fans out, whichever attempts fail: to every server of the stored record of its interface,
in list order, if the client looks for servers, and else to the server that it names, if it names
one. No server of the record is passed over. -/
theorem requests_fan_out (ins : List Input) (net : V4.Network) (d : V4.Datagram)
    (ingress : Interface.Property) (active : ActiveInterface) (address : V4Address)
    (type : V4.MessageType) (p : V4.Packet) :
    let m := start.run ins
    V4.Relay.Admits m.v4.tracker d ingress active address type p →
      m.v4.tracker.configs.get? ingress.name = some active.config ∧
      V4.Relay.FansOut net ingress.name active.config.servers type p
        (V4.Relay.forwarded address type p).encode m.v4.processor.relay
        (m.v4.processor.relay.receive net m.v4.tracker d) := by
  intro m h
  have hm : m.v4.tracker.WellFormed := wellFormed_run ins .v4
  obtain ⟨hproperty, hconfig⟩ := hm.stored_of_activeAt? h.active_eq
  have hindex : ingress.index = d.ingress := hm.props.index_eq _ _ h.ingress_eq
  obtain rfl : ingress = active.property := by
    rw [hindex, h.ingress_eq] at hproperty
    exact Option.some.inj hproperty
  have hfans := h.fansOut net m.v4.processor.relay
  rw [V4.Relay.readable_eq_self (hm.allows_of_activeAt? (validated_run ins .v4) h.active_eq)]
    at hfans
  exact ⟨hconfig, hfans⟩

/-- An interface is configured with three servers, of which the last is the first again, and comes
up. -/
def threefoldService : List Input :=
  [operation (.configure .v4 (.updateGlobal (.enabled 4))),
    operation (.configure .v4 (.updateInterface
      { name := "eth0", enable := true, servers := ["10.0.0.2", "10.0.0.3", "10.0.0.2"] })),
    operation (.notify { family := .v4, index := 2, name := "eth0",
                         address := some "192.168.1.1/24", change := .created true })]

/-- The interface on which the client looks for servers. -/
def threefoldInterface : ActiveInterface where
  property := V4.Relay.linkProperty
  config := { V4.Relay.linkConfig with servers := ["10.0.0.2", "10.0.0.3", "10.0.0.2"] }

/-- The client's message is admitted. -/
theorem admits_threefoldService : V4.Relay.Admits (start.run threefoldService).v4.tracker
    (V4.Relay.clientDatagram .discover) V4.Relay.linkProperty threefoldInterface
    V4.Relay.linkAddress .discover (V4.Relay.clientPacket .discover) where
  ingress_eq := by decide +kernel
  parse_eq := V4.Packet.parse_encode (by decide)
  type_eq := rfl
  isRequest := rfl
  active_eq := by decide +kernel
  address_eq := by decide
  hops_lt := by decide +kernel

/-- A network that does not take the first transmission. -/
def laterOnly : V4.Network := { V4.Relay.openNetwork with accepts := fun n _ => n ≠ 0 }

/-- The first attempt fails, and the two others succeed: they are counted on the interface and for
the client together, and for the servers each on its own record. -/
theorem requests_fan_out_threefoldService :
    let m := start.run threefoldService
    let result := m.v4.processor.relay.receive laterOnly m.v4.tracker
      (V4.Relay.clientDatagram .discover)
    result.1.sent.map (fun x => (x.destination, x.accepted)) =
        [(⟨.of 10 0 0 2, 67⟩, false), (⟨.of 10 0 0 3, 67⟩, true), (⟨.of 10 0 0 2, 67⟩, true)] ∧
      result.1.outcome = .relayed 2 ∧
      result.2.counters.ofInterface "eth0" (·.serverTx) = 2 ∧
      result.2.counters.ofClient "02:00:00:00:00:09" (·.serverRequests) = 2 ∧
      result.2.counters.atKey (serverKey "eth0" "10.0.0.2") (·.requests) = 1 ∧
      result.2.counters.ofInterface "eth0" (·.drops) = 0 := by
  intro m result
  obtain ⟨-, hfans⟩ := requests_fan_out threefoldService laterOnly _ _ _ _ _ _
    admits_threefoldService
  have hsent : result.1.sent.map (fun x => (x.destination, x.accepted)) =
      [(⟨.of 10 0 0 2, 67⟩, false), (⟨.of 10 0 0 3, 67⟩, true), (⟨.of 10 0 0 2, 67⟩, true)] := by
    decide +kernel
  have hcount : result.1.sent.countP (·.accepted) = 2 := by decide +kernel
  obtain ⟨reason, -, houtcome⟩ := hfans.ends
  have hserverTx := hfans.serverTx_eq "eth0"
  have hclient := hfans.serverRequests_eq "02:00:00:00:00:09"
  have hserver := hfans.requests_eq (serverKey "eth0" "10.0.0.2")
  have hdrops := hfans.drops_eq "eth0"
  refine ⟨hsent, ?_, ?_, ?_, ?_, ?_⟩
  · rw [houtcome, hcount]
    rfl
  · rw [hserverTx]
    decide +kernel
  · rw [hclient]
    decide +kernel
  · rw [hserver]
    decide +kernel
  · rw [hdrops]
    decide +kernel

end RelayManager

end DhcpRelay
