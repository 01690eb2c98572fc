import DhcpRelay.Manager.Basic

/-!
# Status

What the relay agent tells about itself: per family whether the processor is serving, the active
indices, and the records of its counters.
-/

namespace DhcpRelay

/-- The records of a processor in JSON, each with its key, in key order. -/
structure Report where
  clients : List (String × Json)
  interfaces : List (String × Json)
  servers : List (String × Json)

/-- The report in JSON. -/
def Report.toJson (r : Report) : Json :=
  .obj [("clients", .ofList (·.2) r.clients), ("interfaces", .ofList (·.2) r.interfaces),
    ("servers", .ofList (·.2) r.servers)]

/-- The records of a table in JSON. -/
def SortedTable.report {ν : Type} (t : SortedTable String ν) (encode : ν → Json) :
    List (String × Json) :=
  t.entries.map fun (key, record) => (key, encode record)

/-- The records of a set of counters. -/
def Counters.report {σ : Type} (seen : σ → List (String × Json)) (c : Counters σ) : Report :=
  ⟨c.clients.report (ClientRecord.toJson seen), c.interfaces.report InterfaceRecord.toJson,
    c.servers.report ServerRecord.toJson⟩

/-- The record of an interface that a recorder keeps. -/
def Recorder.interfaceRecord (name : String) : Json := .obj [("intf_ref", .str name)]

/-- The records of a recorder. -/
def Recorder.report (r : Recorder) : Report :=
  ⟨[], r.interfaces.keys.map fun name => (name, interfaceRecord name), []⟩

/-- The records of the DHCPv4 processor. -/
def V4.Processor.report (p : V4.Processor) : Report := p.relay.counters.report V4.Sightings.members

/-- The records of the DHCPv6 processor. -/
def V6.Processor.report (p : V6.Processor) : Report := p.relay.counters.report V6.Sightings.members

/-- The status of one agent. -/
def Agent.status {σ : Type} (l : Lifecycle σ) (report : σ → Report) (a : Agent σ) : Json :=
  .obj [("running", .bool (l.running a.processor)),
    ("active", .ofList .int a.tracker.activeIndices), ("state", (report a.processor).toJson)]

/-- The status of both agents. -/
def Manager.status {σ₄ σ₆ : Type} (l : Lifecycles σ₄ σ₆) (report₄ : σ₄ → Report)
    (report₆ : σ₆ → Report) (m : Manager σ₄ σ₆) : Json :=
  .obj [("dhcp", m.v4.status l.v4 report₄), ("dhcpv6", m.v6.status l.v6 report₆)]

end DhcpRelay
