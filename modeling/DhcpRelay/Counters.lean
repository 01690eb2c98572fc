import DhcpRelay.SortedTable
import DhcpRelay.Json.Value

/-!
# Counters

What a relay counts: a record per client, per interface, and per interface and server. Records are
created when something is counted for the first time. The two protocols count alike and differ in
the message types whose arrival a client record notes, so a client record is generic in that part
(`σ`).

A server's record stands under the interface's name and the server's text joined by an underscore.
The record's own fields are those of the first pair that was counted under its key.
-/

namespace DhcpRelay

/-- What is counted for one client. -/
structure ClientRecord (σ : Type) where
  client : String
  /-- The server to which a message of the client was sent last. -/
  serverIp : String := ""
  /-- The address that a server offered last. -/
  offeredIp : String := ""
  /-- The address that the client asked for last. -/
  requestedIp : String := ""
  /-- The address that a server acknowledged last. -/
  acceptedIp : String := ""
  /-- The message types that have arrived. -/
  seen : σ
  clientRequests : Nat := 0
  clientResponses : Nat := 0
  serverRequests : Nat := 0
  serverResponses : Nat := 0
  deriving DecidableEq, Repr

/-- What is counted for one interface. -/
structure InterfaceRecord where
  name : String
  drops : Nat := 0
  clientRx : Nat := 0
  clientTx : Nat := 0
  serverRx : Nat := 0
  serverTx : Nat := 0
  deriving DecidableEq, Repr

/-- What is counted for one server as seen from one interface. -/
structure ServerRecord where
  interface : String
  server : String
  requests : Nat := 0
  responses : Nat := 0
  deriving DecidableEq, Repr

/-- The three tables of counters. The numbers in their records have no bound here: no run is taken
to be so long that one of them would pass 64 bits. -/
structure Counters (σ : Type) where
  clients : SortedTable String (ClientRecord σ) := ∅
  interfaces : SortedTable String InterfaceRecord := ∅
  servers : SortedTable String ServerRecord := ∅
  deriving DecidableEq

/-- The key of a server's record. -/
def serverKey (interface server : String) : String := interface ++ "_" ++ server

namespace Counters

variable {σ : Type}

/-- Changes a client's record. -/
def onClient [Inhabited σ] (c : Counters σ) (client : String)
    (f : ClientRecord σ → ClientRecord σ) : Counters σ :=
  { c with clients := c.clients.upsert client { client, seen := default } f }

/-- Changes an interface's record. -/
def onInterface (c : Counters σ) (name : String) (f : InterfaceRecord → InterfaceRecord) :
    Counters σ :=
  { c with interfaces := c.interfaces.upsert name { name } f }

/-- Changes a server's record. -/
def onServer (c : Counters σ) (interface server : String) (f : ServerRecord → ServerRecord) :
    Counters σ :=
  { c with servers := c.servers.upsert (serverKey interface server) { interface, server } f }

/-- Counts a dropped message. -/
def drop (c : Counters σ) (name : String) : Counters σ :=
  c.onInterface name fun r => { r with drops := r.drops + 1 }

/-- Makes sure that an interface has a record. -/
def createInterface (c : Counters σ) (name : String) : Counters σ := c.onInterface name id

/-- Removes an interface's record. -/
def deleteInterface (c : Counters σ) (name : String) : Counters σ :=
  { c with interfaces := c.interfaces.erase name }

/-- The record of a server as seen from an interface. -/
def server? (c : Counters σ) (interface server : String) : Option ServerRecord :=
  c.servers.get? (serverKey interface server)

end Counters

/-! ## Records in JSON -/

/-- The record in JSON; `seen` gives the members for the message types that have arrived. -/
def ClientRecord.toJson {σ : Type} (seen : σ → List (String × Json)) (r : ClientRecord σ) : Json :=
  .obj ([("mac_addr", .str r.client), ("server_ip", .str r.serverIp),
    ("offered_ip", .str r.offeredIp), ("requested_ip", .str r.requestedIp),
    ("accepted_ip", .str r.acceptedIp)] ++ seen r.seen ++
    [("client_requests", .nat r.clientRequests), ("client_responses", .nat r.clientResponses),
      ("server_requests", .nat r.serverRequests), ("server_responses", .nat r.serverResponses)])

/-- The record in JSON. -/
def InterfaceRecord.toJson (r : InterfaceRecord) : Json :=
  .obj [("intf_ref", .str r.name), ("total_drops", .nat r.drops),
    ("total_dhcp_client_rx", .nat r.clientRx), ("total_dhcp_client_tx", .nat r.clientTx),
    ("total_dhcp_server_rx", .nat r.serverRx), ("total_dhcp_server_tx", .nat r.serverTx)]

/-- The record in JSON. -/
def ServerRecord.toJson (r : ServerRecord) : Json :=
  .obj [("intf_ref", .str r.interface), ("server_ip", .str r.server),
    ("request", .nat r.requests), ("responses", .nat r.responses)]

/-- The member that says whether a message type has arrived. -/
def seenMember (name : String) (seen : Bool) : String × Json :=
  (name, if seen then .bool true else .null)

end DhcpRelay
