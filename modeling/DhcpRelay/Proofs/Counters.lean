import DhcpRelay.Counters
import DhcpRelay.Outcome
import DhcpRelay.Proofs.SortedTable

/-!
# The books of a relay

Everything that a relay counts is an `Entry`: a message that arrived, one that went on, or one that
was dropped. An entry counts once on the record of its interface and, as far as it names them, once
on the record of its client and once on that of its server, always in the number that belongs to its
kind (`Enters`). The entries of a run are its journal, and the three tables follow from it: every
record and every total is the number of the entries it concerns (`Book`, `KeyBook`, `ServerBook`).

The table of servers is kept under a text that joins an interface and a server. Its records are
those of single pairs as long as the pairs that occur are told apart by their keys (`Separates`).
-/

namespace DhcpRelay

/-! ## Kinds of entries -/

/-- What is counted. -/
inductive Activity where
  | requestReceived
  | requestSent
  | replyReceived
  | replySent
  | dropped
  deriving DecidableEq, Repr

/-- How often something was counted on an interface. -/
def InterfaceRecord.count (a : Activity) (r : InterfaceRecord) : Nat :=
  match a with
  | .requestReceived => r.clientRx
  | .requestSent => r.serverTx
  | .replyReceived => r.serverRx
  | .replySent => r.clientTx
  | .dropped => r.drops

/-- How often something was counted for a client. -/
def ClientRecord.count {σ : Type} (a : Activity) (r : ClientRecord σ) : Nat :=
  match a with
  | .requestReceived => r.clientRequests
  | .requestSent => r.serverRequests
  | .replyReceived => r.serverResponses
  | .replySent => r.clientResponses
  | .dropped => 0

/-- How often something was counted for a server. -/
def ServerRecord.count (a : Activity) (r : ServerRecord) : Nat :=
  match a with
  | .requestSent => r.requests
  | .replySent => r.responses
  | .requestReceived | .replyReceived | .dropped => 0

namespace Counters

/-- One thing that is counted, with the records on which it is counted. -/
inductive Entry where
  | requestReceived (interface : String) (client : Option String)
  | requestSent (interface server : String) (client : Option String)
  | replyReceived (interface : String) (client : Option String)
  | replySent (interface server : String) (client : Option String)
  | dropped (interface : String)
  deriving DecidableEq, Repr

namespace Entry

/-- What is counted. -/
def activity : Entry → Activity
  | requestReceived .. => .requestReceived
  | requestSent .. => .requestSent
  | replyReceived .. => .replyReceived
  | replySent .. => .replySent
  | dropped .. => .dropped

/-- The interface on which it is counted. -/
def interface : Entry → String
  | requestReceived i _ | requestSent i _ _ | replyReceived i _ | replySent i _ _ | dropped i => i

/-- The client for which it is counted. -/
def client? : Entry → Option String
  | requestReceived _ c | requestSent _ _ c | replyReceived _ c | replySent _ _ c => c
  | dropped _ => none

/-- The server for which it is counted. -/
def server? : Entry → Option String
  | requestSent _ s _ | replySent _ s _ => some s
  | requestReceived .. | replyReceived .. | dropped .. => none

/-- The key of the server's record. -/
def key? (e : Entry) : Option String := e.server?.map (serverKey e.interface)

/-- What concerns a server is what was sent. -/
theorem isSome_server?_iff (e : Entry) :
    e.server?.isSome = true ↔ e.activity = .requestSent ∨ e.activity = .replySent := by
  cases e <;> simp [server?, activity]

/-- It is a message that arrived. -/
def IsArrival (e : Entry) : Prop := e.activity = .requestReceived ∨ e.activity = .replyReceived

/-- A message that arrived concerns no server. -/
theorem IsArrival.server?_eq {e : Entry} (h : e.IsArrival) : e.server? = none := by
  cases e with
  | requestReceived | replyReceived | dropped => rfl
  | requestSent | replySent => simp [IsArrival, activity] at h

/-- Among messages that arrived there is none that was sent or dropped. -/
theorem countP_arrivals {es : List Entry} (h : ∀ e ∈ es, e.IsArrival) {p : Entry → Bool}
    (hp : ∀ e, p e = true →
      e.activity = .requestSent ∨ e.activity = .replySent ∨ e.activity = .dropped) :
    es.countP p = 0 := by
  refine List.countP_eq_zero.2 fun e he hpe => ?_
  rcases h e he with ha | ha <;> simpa [ha] using hp e hpe

/-- Requests that were sent from an interface are counted there alone. -/
theorem countP_requestSent {α : Type} (text : α → String) (i : String) (client : Option String)
    (servers : List α) (name : String) :
    (servers.map fun s => requestSent i (text s) client).countP
      (fun e => e.activity = .requestSent ∧ e.interface = name) =
        if i = name then servers.length else 0 := by
  rw [List.countP_map]
  split
  · next h => exact List.countP_eq_length.2 fun s _ => by simp [activity, interface, h]
  · next h => exact List.countP_eq_zero.2 fun s _ => by simp [interface, h]

/-- Requests that were sent to a server are counted for that server alone. -/
theorem countP_requestSent_to {α : Type} (text : α → String) (i : String) (client : Option String)
    (servers : List α) (name server : String) :
    (servers.map fun s => requestSent i (text s) client).countP
      (fun e => e.activity = .requestSent ∧ e.interface = name ∧ e.server? = some server) =
        if i = name then servers.countP (text · = server) else 0 := by
  rw [List.countP_map]
  split
  · next h => exact List.countP_congr fun s _ => by simp [activity, interface, server?, h]
  · next h => exact List.countP_eq_zero.2 fun s _ => by simp [interface, h]

/-- A change of a record adds one to the number of what is counted and leaves the others alone. -/
def Advances {ρ : Type} (e : Entry) (count : Activity → ρ → Nat) (f : ρ → ρ) : Prop :=
  ∀ a r, count a (f r) = count a r + if e.activity = a then 1 else 0

/-- The pair of interface and server for which it is counted satisfies `P`, if there is one. -/
def Names (P : String → String → Prop) (e : Entry) : Prop :=
  ∀ server, e.server? = some server → P e.interface server

end Entry

end Counters

/-- How many drops an outcome is that are counted, if one reason is exempt. -/
def Outcome.countedDrops (exempt : DropReason) : Outcome → Nat
  | .dropped reason => if reason = exempt then 0 else 1
  | .relayed _ | .delivered _ | .ignored => 0

/-! ## Keys of servers -/

/-- A property of pairs of an interface and a server such that the keys of different pairs with the
property differ. -/
def Separates (P : String → String → Prop) : Prop :=
  ∀ {i s i' s' : String}, P i s → P i' s' → serverKey i s = serverKey i' s' → i = i' ∧ s = s'

/-- A list is divided in one way at the last place where something stands. -/
theorem append_cons_inj_of_notMem_right {α : Type} {c : α} {l r l' r' : List α} (hr : c ∉ r)
    (hr' : c ∉ r') (h : l ++ c :: r = l' ++ c :: r') : l = l' ∧ r = r' := by
  obtain ⟨m, rfl, hm⟩ | ⟨m, rfl, hm⟩ := List.append_eq_append_iff.1 h
  · cases m with
    | nil => exact ⟨(List.append_nil l).symm, List.tail_eq_of_cons_eq hm⟩
    | cons x m =>
      obtain ⟨-, rfl⟩ := List.cons.inj hm
      exact absurd (List.mem_append_right m List.mem_cons_self) hr
  · cases m with
    | nil => exact ⟨List.append_nil l', (List.tail_eq_of_cons_eq hm).symm⟩
    | cons x m =>
      obtain ⟨-, rfl⟩ := List.cons.inj hm
      exact absurd (List.mem_append_right m List.mem_cons_self) hr'

/-- A list is divided in one way at the first place where something stands. -/
theorem append_cons_inj_of_notMem_left {α : Type} {c : α} {l r l' r' : List α} (hl : c ∉ l)
    (hl' : c ∉ l') (h : l ++ c :: r = l' ++ c :: r') : l = l' ∧ r = r' := by
  have hreverse := congrArg List.reverse h
  simp only [List.reverse_append, List.reverse_cons, List.append_assoc, List.singleton_append]
    at hreverse
  obtain ⟨hr, hl⟩ := append_cons_inj_of_notMem_right (by simpa using hl) (by simpa using hl')
    hreverse
  exact ⟨List.reverse_inj.1 hl, List.reverse_inj.1 hr⟩

/-- A list is not divided by two things neither of which stands before the other. -/
theorem append_cons_ne_of_notMem {α : Type} {c c' : α} {l r l' r' : List α} (hne : c ≠ c')
    (hl : c' ∉ l) (hl' : c ∉ l') : l ++ c :: r ≠ l' ++ c' :: r' := by
  intro h
  obtain ⟨m, rfl, hm⟩ | ⟨m, rfl, hm⟩ := List.append_eq_append_iff.1 h
  · cases m with
    | nil => exact hne (List.cons.inj hm).1
    | cons x m => exact hl' (List.mem_append_right l ((List.cons.inj hm).1 ▸ List.mem_cons_self))
  · cases m with
    | nil => exact hne (List.cons.inj hm).1.symm
    | cons x m => exact hl (List.mem_append_right l' ((List.cons.inj hm).1 ▸ List.mem_cons_self))

/-- The characters of a key. -/
theorem toList_serverKey (i s : String) : (serverKey i s).toList = i.toList ++ '_' :: s.toList := by
  rw [serverKey, String.toList_append, String.toList_append, List.append_assoc]
  rfl

/-- Keys tell the servers of one interface apart. -/
theorem serverKey_right_inj {i s s' : String} : serverKey i s = serverKey i s' ↔ s = s' := by
  constructor
  · intro h
    have hchars := congrArg String.toList h
    rw [toList_serverKey, toList_serverKey] at hchars
    exact String.toList_inj.1 (List.tail_eq_of_cons_eq (List.append_cancel_left hchars))
  · rintro rfl
    rfl

/-- Keys tell servers apart whose text has no underscore, whatever the names of the interfaces. -/
theorem separates_of_no_underscore : Separates fun _ s => '_' ∉ s.toList := by
  intro i s i' s' h h' hkey
  have hchars := congrArg String.toList hkey
  rw [toList_serverKey, toList_serverKey] at hchars
  obtain ⟨hi, hs⟩ := append_cons_inj_of_notMem_right h h' hchars
  exact ⟨String.toList_inj.1 hi, String.toList_inj.1 hs⟩

/-- The text has a colon and no underscore before it. -/
def ColonFirst (s : String) : Prop :=
  ∃ before after, s.toList = before ++ ':' :: after ∧ ':' ∉ before ∧ '_' ∉ before

theorem ColonFirst.of_mem {s : String} (hcolon : ':' ∈ s.toList) (hunder : '_' ∉ s.toList) :
    ColonFirst s := by
  obtain ⟨before, after, hs, hbefore⟩ := List.eq_append_cons_of_mem hcolon
  rw [hs] at hunder
  exact ⟨before, after, hs, hbefore, fun h => hunder (List.mem_append_left _ h)⟩

theorem ColonFirst.append {s : String} (h : ColonFirst s) (s' : String) : ColonFirst (s ++ s') := by
  obtain ⟨before, after, hs, hbefore⟩ := h
  exact ⟨before, after ++ s'.toList, by rw [String.toList_append, hs]; simp, hbefore⟩

/-- Keys tell servers apart whose text has its first colon before any underscore, on interfaces
whose names have no colon: the first colon of the key belongs to the server, and the last underscore
before it is the one between the two. -/
theorem separates_of_colonFirst : Separates fun i s => ':' ∉ i.toList ∧ ColonFirst s := by
  rintro i s i' s' ⟨hi, before, after, hs, hcolon, hunder⟩
    ⟨hi', before', after', hs', hcolon', hunder'⟩ hkey
  have hchars := congrArg String.toList hkey
  rw [toList_serverKey, toList_serverKey, hs, hs', ← List.cons_append, ← List.cons_append,
    ← List.append_assoc, ← List.append_assoc] at hchars
  obtain ⟨hfront, rfl⟩ :=
    append_cons_inj_of_notMem_left (by simp [hi, hcolon]) (by simp [hi', hcolon']) hchars
  obtain ⟨hname, rfl⟩ := append_cons_inj_of_notMem_right hunder hunder' hfront
  exact ⟨String.toList_inj.1 hname, String.toList_inj.1 (hs.trans hs'.symm)⟩

/-- Keys tell a server whose text has no underscore, on an interface whose name has no colon, from
all servers whose text has its first colon before any underscore: were the name on the other side
cut short at an underscore, the rest of it would stand before the colon. -/
theorem serverKey_inj_of_plain {i s i' s' : String} (hi : ':' ∉ i.toList) (hs : '_' ∉ s.toList)
    (hs' : ColonFirst s') (hkey : serverKey i s = serverKey i' s') : i = i' ∧ s = s' := by
  have hchars := congrArg String.toList hkey
  rw [toList_serverKey, toList_serverKey] at hchars
  obtain ⟨m, hname, htext⟩ | ⟨m, hname, htext⟩ := List.append_eq_append_iff.1 hchars
  · cases m with
    | nil =>
      rw [List.append_nil] at hname
      exact ⟨String.toList_inj.1 hname.symm, String.toList_inj.1 (List.tail_eq_of_cons_eq htext)⟩
    | cons x m =>
      rw [List.tail_eq_of_cons_eq htext] at hs
      exact absurd (List.mem_append_right m List.mem_cons_self) hs
  · cases m with
    | nil =>
      rw [List.append_nil] at hname
      exact ⟨String.toList_inj.1 hname, String.toList_inj.1 (List.tail_eq_of_cons_eq htext).symm⟩
    | cons x m =>
      have hcut : s'.toList = m ++ '_' :: s.toList := List.tail_eq_of_cons_eq htext
      have hm : ':' ∉ m := fun h => hi (hname ▸ List.mem_append_right _ (List.mem_cons_of_mem x h))
      obtain ⟨before, after, hsplit, -, hunder⟩ := hs'
      exact absurd (hcut.symm.trans hsplit) (append_cons_ne_of_notMem (by decide) hm hunder)

namespace Counters

/-! ## Entering -/

section
variable {σ : Type} [Inhabited σ]

/-- An entry is counted on its records, and nothing else changes in any number. -/
structure Enters (e : Entry) (c c' : Counters σ) : Prop where
  interfaces : ∃ f, c'.interfaces = (c.onInterface e.interface f).interfaces ∧
    e.Advances InterfaceRecord.count f
  clients : match e.client? with
    | none => c'.clients = c.clients
    | some client => ∃ f, c'.clients = (c.onClient client f).clients ∧
      e.Advances ClientRecord.count f
  servers : match e.server? with
    | none => c'.servers = c.servers
    | some server => ∃ f, c'.servers = (c.onServer e.interface server f).servers ∧
      e.Advances ServerRecord.count f ∧
      ∀ r, (f r).interface = r.interface ∧ (f r).server = r.server

/-- Entries are counted one after another. -/
inductive Posts : List Entry → Counters σ → Counters σ → Prop where
  | nil (c : Counters σ) : Posts [] c c
  | cons {e : Entry} {es : List Entry} {c c' c'' : Counters σ} (head : Enters e c c')
    (tail : Posts es c' c'') : Posts (e :: es) c c''

/-- Changes the record of a client, if there is one. -/
def onClient? (c : Counters σ) (client : Option String) (f : ClientRecord σ → ClientRecord σ) :
    Counters σ :=
  match client with
  | some client => c.onClient client f
  | none => c

section
variable {e : Entry} {c : Counters σ} {f : InterfaceRecord → InterfaceRecord}
  {g : ClientRecord σ → ClientRecord σ} {h : ServerRecord → ServerRecord} {server : String}

/-- What concerns neither a client nor a server is entered by a change of the interface's record. -/
theorem enters_onInterface (hclient : e.client? = none) (hserver : e.server? = none)
    (hf : e.Advances InterfaceRecord.count f) : Enters e c (c.onInterface e.interface f) := by
  refine ⟨⟨f, rfl, hf⟩, ?_, ?_⟩
  · rw [hclient]
    rfl
  · rw [hserver]
    rfl

/-- What does not concern a server is entered by a change of the interface's and the client's
record. -/
theorem enters_received (hserver : e.server? = none) (hf : e.Advances InterfaceRecord.count f)
    (hg : e.Advances ClientRecord.count g) :
    Enters e c ((c.onInterface e.interface f).onClient? e.client? g) := by
  refine ⟨⟨f, ?_, hf⟩, ?_, ?_⟩
  · cases e.client? <;> rfl
  · cases e.client? with
    | none => rfl
    | some client => exact ⟨g, rfl, hg⟩
  · rw [hserver]
    cases e.client? <;> rfl

/-- What concerns a server is entered by a change of its record as well. -/
theorem enters_sent (hserver : e.server? = some server) (hf : e.Advances InterfaceRecord.count f)
    (hg : e.Advances ClientRecord.count g) (hh : e.Advances ServerRecord.count h)
    (hkept : ∀ r, (h r).interface = r.interface ∧ (h r).server = r.server) :
    Enters e c (((c.onInterface e.interface f).onServer e.interface server h).onClient? e.client?
      g) := by
  refine ⟨⟨f, ?_, hf⟩, ?_, ?_⟩
  · cases e.client? <;> rfl
  · cases e.client? with
    | none => rfl
    | some client => exact ⟨g, rfl, hg⟩
  · rw [hserver]
    exact ⟨h, by cases e.client? <;> rfl, hh, hkept⟩

/-- A dropped message is entered. -/
theorem enters_drop (c : Counters σ) (name : String) : Enters (.dropped name) c (c.drop name) :=
  enters_onInterface rfl rfl fun a _ => by cases a <;> rfl

end

variable {e : Entry} {es fs : List Entry} {c c' c'' : Counters σ}

/-- One entry. -/
theorem Enters.posts (h : Enters e c c') : Posts [e] c c' := .cons h (.nil c')

/-- Entries that follow on others. -/
theorem Posts.trans (h : Posts es c c') (h' : Posts fs c' c'') : Posts (es ++ fs) c c'' := by
  induction h with
  | nil => exact h'
  | cons head _ ih => exact .cons head (ih h')

end

/-! ## Reading -/

section
variable {σ : Type}

@[simp] theorem clients_createInterface (c : Counters σ) (name : String) :
    (c.createInterface name).clients = c.clients := rfl

@[simp] theorem clients_deleteInterface (c : Counters σ) (name : String) :
    (c.deleteInterface name).clients = c.clients := rfl

/-- A number of an interface's record, if it has one. -/
def ofInterface (c : Counters σ) (name : String) (f : InterfaceRecord → Nat) : Nat :=
  ((c.interfaces.get? name).map f).getD 0

/-- A number of a client's record, if it has one. -/
def ofClient (c : Counters σ) (client : String) (f : ClientRecord σ → Nat) : Nat :=
  ((c.clients.get? client).map f).getD 0

/-- A number of the record of a server that stands under a key, if there is one. -/
def atKey (c : Counters σ) (k : String) (f : ServerRecord → Nat) : Nat :=
  ((c.servers.get? k).map f).getD 0

/-- The record of a server, a new one if it has none. -/
def serverRecord (c : Counters σ) (interface server : String) : ServerRecord :=
  (c.server? interface server).getD { interface, server }

/-- The sum of a number over the records of the servers of an interface. -/
def ofServersOf (c : Counters σ) (interface : String) (f : ServerRecord → Nat) : Nat :=
  c.servers.total fun r => if r.interface = interface then f r else 0

/-- A new record counts nothing. -/
theorem count_serverRecord (a : Activity) (c : Counters σ) (interface server : String) :
    ServerRecord.count a (c.serverRecord interface server) =
      c.atKey (serverKey interface server) (ServerRecord.count a) := by
  unfold serverRecord server? atKey
  cases c.servers.get? (serverKey interface server) with
  | none => cases a <;> rfl
  | some r => rfl

variable {f : InterfaceRecord → InterfaceRecord} {count : InterfaceRecord → Nat} {d : Nat}

/-- A change of one interface's record changes the numbers of that one. -/
theorem ofInterface_onInterface (hfresh : ∀ name, count { name } = 0)
    (hf : ∀ r, count (f r) = count r + d) (c : Counters σ) (name other : String) :
    (c.onInterface name f).ofInterface other count =
      c.ofInterface other count + if name = other then d else 0 := by
  unfold ofInterface onInterface
  rw [SortedTable.get?_upsert]
  by_cases hname : other = name
  · subst hname
    rw [if_pos rfl, if_pos rfl, Option.map_some, Option.getD_some, hf]
    cases c.interfaces.get? other with
    | none => rw [Option.getD_none, hfresh, Option.map_none, Option.getD_none]
    | some r => rfl
  · rw [if_neg hname, if_neg (Ne.symm hname), Nat.add_zero]

/-- A change of one interface's record changes a total by what it changes the number there. -/
theorem total_onInterface (hfresh : ∀ name, count { name } = 0)
    (hf : ∀ r, count (f r) = count r + d) (c : Counters σ) (name : String) :
    (c.onInterface name f).interfaces.total count = c.interfaces.total count + d :=
  SortedTable.total_upsert (hfresh name) (hf _)

/-- A new record of an interface counts nothing. -/
theorem count_fresh (a : Activity) (name : String) :
    InterfaceRecord.count a { name } = 0 := by
  cases a <;> rfl

end

section
variable {σ : Type} [Inhabited σ] {e : Entry} {es : List Entry} {c c' : Counters σ}

/-- A number that grows by one with every entry of some sort grows by the number of such entries. -/
theorem Posts.add_countP (h : Posts es c c') (number : Counters σ → Nat) (P : Entry → Prop)
    [DecidablePred P]
    (hstep : ∀ {e c c'}, Enters e c c' → number c' = number c + if P e then 1 else 0) :
    number c' = number c + es.countP (P ·) := by
  induction h with
  | nil => rw [List.countP_nil, Nat.add_zero]
  | cons head _ ih =>
    rw [ih, hstep head, List.countP_cons, Nat.add_assoc, Nat.add_comm (List.countP _ _)]
    simp only [decide_eq_true_eq]

/-- An entry is one more on the record of its interface. -/
theorem Enters.ofInterface_eq (h : Enters e c c') (a : Activity) (name : String) :
    c'.ofInterface name (InterfaceRecord.count a) =
      c.ofInterface name (InterfaceRecord.count a) +
        if e.activity = a ∧ e.interface = name then 1 else 0 := by
  obtain ⟨f, hinterfaces, hf⟩ := h.interfaces
  have hstep := ofInterface_onInterface (count_fresh a) (hf a) c e.interface name
  rw [ofInterface, hinterfaces, ← ofInterface, hstep]
  by_cases hi : e.interface = name <;> simp [hi]

/-- Entries are so many more on the records of their interfaces. -/
theorem Posts.ofInterface_eq (h : Posts es c c') (a : Activity) (name : String) :
    c'.ofInterface name (InterfaceRecord.count a) =
      c.ofInterface name (InterfaceRecord.count a) +
        es.countP fun e => e.activity = a ∧ e.interface = name :=
  h.add_countP (·.ofInterface name _) _ fun he => he.ofInterface_eq a name

/-- What an entry makes of the record of its client. -/
theorem Enters.get?_clients (h : Enters e c c') {client : String}
    (hclient : e.client? = some client) : ∃ f, e.Advances ClientRecord.count f ∧
      c'.clients.get? client =
        some (f ((c.clients.get? client).getD { client, seen := default })) := by
  have hclients := h.clients
  rw [hclient] at hclients
  obtain ⟨f, hclients, hf⟩ := hclients
  exact ⟨f, hf, by rw [hclients, onClient, SortedTable.get?_upsert, if_pos rfl]⟩

/-- An entry leaves the records of other clients as they are. -/
theorem Enters.get?_clients_of_ne (h : Enters e c c') {client : String}
    (hne : e.client? ≠ some client) : c'.clients.get? client = c.clients.get? client := by
  have hclients := h.clients
  cases hc : e.client? with
  | none =>
    rw [hc] at hclients
    rw [hclients]
  | some own =>
    rw [hc] at hclients hne
    obtain ⟨f, hclients, -⟩ := hclients
    rw [hclients, onClient, SortedTable.get?_upsert, if_neg fun h => hne (congrArg some h.symm)]

/-- Entries leave the records of the clients that they do not concern as they are. -/
theorem Posts.get?_clients_of_ne (h : Posts es c c') {client : String}
    (hne : ∀ e ∈ es, e.client? ≠ some client) :
    c'.clients.get? client = c.clients.get? client := by
  induction h with
  | nil => rfl
  | cons head _ ih =>
    obtain ⟨hhead, htail⟩ := List.forall_mem_cons.1 hne
    rw [ih htail, head.get?_clients_of_ne hhead]

/-- After entries a client has a record if it had one or if one of them concerns it. -/
theorem Posts.isSome_get?_clients_iff (h : Posts es c c') (client : String) :
    (c'.clients.get? client).isSome = true ↔
      (c.clients.get? client).isSome = true ∨ ∃ e ∈ es, e.client? = some client := by
  induction h with
  | nil => simp
  | @cons e es c c' c'' head _ ih =>
    rw [ih]
    by_cases hclient : e.client? = some client
    · obtain ⟨f, -, hrecord⟩ := head.get?_clients hclient
      simp [hclient, hrecord]
    · simp [hclient, head.get?_clients_of_ne hclient]

/-- An entry is one more on the record of its client. -/
theorem Enters.ofClient_eq (h : Enters e c c') (a : Activity) (client : String) :
    c'.ofClient client (ClientRecord.count a) = c.ofClient client (ClientRecord.count a) +
      if e.activity = a ∧ e.client? = some client then 1 else 0 := by
  by_cases hclient : e.client? = some client
  · obtain ⟨f, hf, hrecord⟩ := h.get?_clients hclient
    rw [ofClient, hrecord, Option.map_some, Option.getD_some, hf, ofClient]
    cases c.clients.get? client with
    | none => cases a <;> simp [ClientRecord.count, hclient]
    | some r => simp [hclient]
  · simp [ofClient, h.get?_clients_of_ne hclient, hclient]

/-- Entries are so many more on the records of their clients. -/
theorem Posts.ofClient_eq (h : Posts es c c') (a : Activity) (client : String) :
    c'.ofClient client (ClientRecord.count a) = c.ofClient client (ClientRecord.count a) +
      es.countP fun e => e.activity = a ∧ e.client? = some client :=
  h.add_countP (·.ofClient client _) _ fun he => he.ofClient_eq a client

/-- What an entry makes of the records of servers: that of its own server changes. -/
theorem Enters.get?_servers (he : Enters e c c') {server : String}
    (hserver : e.server? = some server) :
    ∃ f, c'.servers = (c.onServer e.interface server f).servers ∧
      (∀ k, c'.servers.get? k = if k = serverKey e.interface server then
        some (f (c.serverRecord e.interface server)) else c.servers.get? k) ∧
      e.Advances ServerRecord.count f ∧
      ∀ r, (f r).interface = r.interface ∧ (f r).server = r.server := by
  have hservers := he.servers
  rw [hserver] at hservers
  obtain ⟨f, hservers, hf, hkept⟩ := hservers
  refine ⟨f, hservers, fun k => ?_, hf, hkept⟩
  rw [hservers]
  exact SortedTable.get?_upsert _ _ _ _ _

/-- An entry is one more under its key. -/
theorem Enters.atKey_eq (h : Enters e c c') (a : Activity) (k : String) :
    c'.atKey k (ServerRecord.count a) = c.atKey k (ServerRecord.count a) +
      if e.activity = a ∧ e.key? = some k then 1 else 0 := by
  cases hs : e.server? with
  | none =>
    have hservers := h.servers
    rw [hs] at hservers
    simp [atKey, hservers, Entry.key?, hs]
  | some server =>
    obtain ⟨f, -, hget, hf, -⟩ := h.get?_servers hs
    rw [atKey, hget]
    by_cases hk : k = serverKey e.interface server
    · subst hk
      rw [if_pos rfl, Option.map_some, Option.getD_some, hf, count_serverRecord]
      simp [Entry.key?, hs]
    · rw [if_neg hk]
      simp [Entry.key?, hs, atKey, Ne.symm hk]

/-- Entries are so many more under their keys. -/
theorem Posts.atKey_eq (h : Posts es c c') (a : Activity) (k : String) :
    c'.atKey k (ServerRecord.count a) = c.atKey k (ServerRecord.count a) +
      es.countP fun e => e.activity = a ∧ e.key? = some k :=
  h.add_countP (·.atKey k _) _ fun he => he.atKey_eq a k

end

/-! ## Interfaces and clients -/

section
variable {σ : Type} {c : Counters σ} {journal : List Entry}

/-- The numbers of interfaces and clients are those of a journal. -/
structure Book (journal : List Entry) (c : Counters σ) : Prop where
  ofInterface_eq (a : Activity) (name : String) : c.ofInterface name (InterfaceRecord.count a) =
    journal.countP fun e => e.activity = a ∧ e.interface = name
  interfaces_eq (a : Activity) : c.interfaces.total (InterfaceRecord.count a) =
    journal.countP fun e => e.activity = a
  clients_eq (a : Activity) : c.clients.total (ClientRecord.count a) =
    journal.countP fun e => e.activity = a ∧ e.client?.isSome

/-- Before anything is counted the journal is empty. -/
theorem Book.empty : Book [] ({} : Counters σ) := ⟨fun _ _ => rfl, fun _ => rfl, fun _ => rfl⟩

/-- A record that is created counts nothing yet. -/
theorem Book.createInterface (h : Book journal c) (name : String) :
    Book journal (c.createInterface name) := by
  have hkept : ∀ a r, InterfaceRecord.count a (id r) = InterfaceRecord.count a r + 0 :=
    fun _ _ => rfl
  refine ⟨fun a other => ?_, fun a => ?_, h.clients_eq⟩
  · rw [Counters.createInterface, ofInterface_onInterface (count_fresh a) (hkept a), ite_self,
      Nat.add_zero, h.ofInterface_eq]
  · rw [Counters.createInterface, total_onInterface (count_fresh a) (hkept a), Nat.add_zero,
      h.interfaces_eq]

/-- What is counted for clients is counted on interfaces too. -/
theorem Book.clients_le (h : Book journal c) (a : Activity) :
    c.clients.total (ClientRecord.count a) ≤ c.interfaces.total (InterfaceRecord.count a) := by
  rw [h.clients_eq, h.interfaces_eq]
  refine List.countP_mono_left fun e _ he => ?_
  simp only [decide_eq_true_eq] at he ⊢
  exact he.1

/-- What concerns a client every time is counted for clients as often as on interfaces. -/
theorem Book.clients_eq_interfaces (h : Book journal c) {a : Activity}
    (hclient : ∀ e ∈ journal, e.activity = a → e.client?.isSome = true) :
    c.clients.total (ClientRecord.count a) = c.interfaces.total (InterfaceRecord.count a) := by
  rw [h.clients_eq, h.interfaces_eq]
  exact List.countP_congr fun e he => by simpa using hclient e he

end

section
variable {σ : Type} [Inhabited σ] {e : Entry} {es journal : List Entry} {c c' : Counters σ}

/-- One entry more in the journal is one more on its records. -/
theorem Book.enter (h : Book journal c) (he : Enters e c c') : Book (journal ++ [e]) c' := by
  obtain ⟨f, hinterfaces, hf⟩ := he.interfaces
  refine ⟨fun a name => ?_, fun a => ?_, fun a => ?_⟩
  · rw [he.ofInterface_eq, h.ofInterface_eq, List.countP_append, List.countP_singleton]
    simp only [decide_eq_true_eq]
  · rw [hinterfaces, total_onInterface (count_fresh a) (hf a), h.interfaces_eq, List.countP_append,
      List.countP_singleton]
    simp only [decide_eq_true_eq]
  · have hclients := he.clients
    rw [List.countP_append, List.countP_singleton, ← h.clients_eq]
    cases hc : e.client? with
    | none =>
      rw [hc] at hclients
      simp [hclients]
    | some client =>
      rw [hc] at hclients
      obtain ⟨g, hclients, hg⟩ := hclients
      have hfresh : ClientRecord.count a ({ client, seen := default } : ClientRecord σ) = 0 := by
        cases a <;> rfl
      rw [hclients]
      refine (SortedTable.total_upsert hfresh (hg a _)).trans ?_
      simp

/-- Entries more in the journal are so many more on their records. -/
theorem Book.posts (h : Book journal c) (hes : Posts es c c') : Book (journal ++ es) c' := by
  induction hes generalizing journal with
  | nil => rwa [List.append_nil]
  | cons head _ ih =>
    rw [List.append_cons]
    exact ih (h.enter head)

end

/-! ## Servers -/

section
variable {σ : Type} {P : String → String → Prop} {journal : List Entry} {c c' : Counters σ}

/-- Every record of a server stands under the key of its own pair, and its numbers are those of the
entries with that key. -/
structure KeyBook (journal : List Entry) (c : Counters σ) : Prop where
  keyed (k : String) (r : ServerRecord) (h : c.servers.get? k = some r) :
    serverKey r.interface r.server = k
  atKey_eq (a : Activity) (k : String) : c.atKey k (ServerRecord.count a) =
    journal.countP fun e => e.activity = a ∧ e.key? = some k

/-- Before anything is counted the journal is empty. -/
theorem KeyBook.empty : KeyBook [] ({} : Counters σ) := ⟨nofun, fun _ _ => rfl⟩

/-- The numbers under keys do not depend on the other tables. -/
theorem KeyBook.congr (h : KeyBook journal c) (hservers : c'.servers = c.servers) :
    KeyBook journal c' := by
  refine ⟨fun k r hr => h.keyed k r (hservers ▸ hr), fun a k => ?_⟩
  rw [← h.atKey_eq a k, atKey, hservers]
  rfl

/-- The record of a server has the server's key. -/
theorem KeyBook.key_serverRecord (h : KeyBook journal c) (i s : String) :
    serverKey (c.serverRecord i s).interface (c.serverRecord i s).server = serverKey i s := by
  unfold serverRecord
  cases hr : c.server? i s with
  | none => rfl
  | some r => exact h.keyed _ r hr

/-- One entry more in the journal is one more under its key. -/
theorem KeyBook.enter [Inhabited σ] {e : Entry} (h : KeyBook journal c) (he : Enters e c c') :
    KeyBook (journal ++ [e]) c' := by
  refine ⟨fun k r hr => ?_, fun a k => ?_⟩
  · cases hs : e.server? with
    | none =>
      have hservers := he.servers
      rw [hs] at hservers
      exact h.keyed k r (hservers ▸ hr)
    | some server =>
      obtain ⟨f, -, hget, -, hkept⟩ := he.get?_servers hs
      rw [hget] at hr
      split at hr
      · next hk =>
        obtain rfl := Option.some.inj hr
        rw [(hkept _).1, (hkept _).2, h.key_serverRecord, hk]
      · exact h.keyed k r hr
  · rw [he.atKey_eq, h.atKey_eq, List.countP_append, List.countP_singleton]
    simp only [decide_eq_true_eq]

/-- Entries more in the journal are so many more under their keys. -/
theorem KeyBook.posts [Inhabited σ] {es : List Entry} (h : KeyBook journal c)
    (hes : Posts es c c') : KeyBook (journal ++ es) c' := by
  induction hes generalizing journal with
  | nil => rwa [List.append_nil]
  | cons head _ ih =>
    rw [List.append_cons]
    exact ih (h.enter head)

/-- Besides, the pair of every record has the property `P`, and what is counted for the servers of
an interface is what is entered with servers there. -/
structure ServerBook (P : String → String → Prop) (journal : List Entry) (c : Counters σ) : Prop
    extends KeyBook journal c where
  own (k : String) (r : ServerRecord) (h : c.servers.get? k = some r) : P r.interface r.server
  ofServersOf_eq (a : Activity) (i : String) : c.ofServersOf i (ServerRecord.count a) =
    journal.countP fun e => e.activity = a ∧ e.interface = i ∧ e.server?.isSome

/-- Before anything is counted the journal is empty. -/
theorem ServerBook.empty : ServerBook P [] ({} : Counters σ) := ⟨.empty, nofun, fun _ _ => rfl⟩

/-- The numbers of servers do not depend on the other tables. -/
theorem ServerBook.congr (h : ServerBook P journal c) (hservers : c'.servers = c.servers) :
    ServerBook P journal c' := by
  refine ⟨h.toKeyBook.congr hservers, fun k r hr => h.own k r (hservers ▸ hr), fun a i => ?_⟩
  rw [← h.ofServersOf_eq a i, ofServersOf, hservers]
  rfl

/-- What was sent is counted for the servers of an interface as often as on the interface. -/
theorem Book.ofInterface_eq_ofServersOf (h : Book journal c) (hs : ServerBook P journal c)
    {a : Activity} (ha : a = .requestSent ∨ a = .replySent) (i : String) :
    c.ofInterface i (InterfaceRecord.count a) = c.ofServersOf i (ServerRecord.count a) := by
  rw [h.ofInterface_eq, hs.ofServersOf_eq]
  refine List.countP_congr fun e _ => ?_
  simp only [decide_eq_true_eq, e.isSome_server?_iff]
  constructor
  · rintro ⟨rfl, hi⟩
    exact ⟨rfl, hi, ha⟩
  · rintro ⟨hea, hi, -⟩
    exact ⟨hea, hi⟩

/-- The record of a server is its own. -/
theorem ServerBook.serverRecord_eq (h : ServerBook P journal c) (hP : Separates P) {i s : String}
    (hp : P i s) : (c.serverRecord i s).interface = i ∧ (c.serverRecord i s).server = s := by
  have hkey := h.key_serverRecord i s
  unfold serverRecord at hkey ⊢
  cases hr : c.server? i s with
  | none => exact ⟨rfl, rfl⟩
  | some r =>
    rw [hr] at hkey
    exact hP (h.own _ r hr) hp hkey

/-- One entry more in the journal is one more on the record of its server. -/
theorem ServerBook.enter [Inhabited σ] {e : Entry} (h : ServerBook P journal c) (hP : Separates P)
    (hnames : e.Names P) (he : Enters e c c') : ServerBook P (journal ++ [e]) c' := by
  cases hs : e.server? with
  | none =>
    have hservers := he.servers
    rw [hs] at hservers
    refine ⟨h.toKeyBook.enter he, fun k r hr => h.own k r (hservers ▸ hr), fun a i => ?_⟩
    rw [List.countP_append, List.countP_singleton, ← h.ofServersOf_eq a i, ofServersOf, hservers]
    simp [hs, ofServersOf]
  | some server =>
    obtain ⟨f, hservers, hget, hf, hkept⟩ := he.get?_servers hs
    have hp := hnames server hs
    -- the record that is changed is that of the entry's own pair
    obtain ⟨hinterface, hserver⟩ := h.serverRecord_eq hP hp
    refine ⟨h.toKeyBook.enter he, fun k r hr => ?_, fun a i => ?_⟩
    · rw [hget] at hr
      split at hr
      · obtain rfl := Option.some.inj hr
        rw [(hkept _).1, (hkept _).2, hinterface, hserver]
        exact hp
      · exact h.own k r hr
    · have hstep : (c.onServer e.interface server f).ofServersOf i (ServerRecord.count a) =
          c.ofServersOf i (ServerRecord.count a) +
            if e.activity = a ∧ e.interface = i then 1 else 0 := by
        refine SortedTable.total_upsert (by cases a <;> simp [ServerRecord.count]) ?_
        have hrecord := hf a (c.serverRecord e.interface server)
        have hsame := (hkept (c.serverRecord e.interface server)).1
        show (if (f (c.serverRecord e.interface server)).interface = i then
            ServerRecord.count a (f (c.serverRecord e.interface server)) else 0) =
          (if (c.serverRecord e.interface server).interface = i then
            ServerRecord.count a (c.serverRecord e.interface server) else 0) + _
        rw [hsame, hinterface, hrecord]
        by_cases hi : e.interface = i <;> simp [hi]
      rw [ofServersOf] at hstep
      rw [List.countP_append, List.countP_singleton, ← h.ofServersOf_eq a i, ofServersOf, hservers,
        hstep]
      simp [hs]

/-- Entries more in the journal are so many more on the records of their servers. -/
theorem ServerBook.posts [Inhabited σ] {es : List Entry} (h : ServerBook P journal c)
    (hP : Separates P) (hnames : ∀ e ∈ es, e.Names P) (hes : Posts es c c') :
    ServerBook P (journal ++ es) c' := by
  induction hes generalizing journal with
  | nil => rwa [List.append_nil]
  | cons head _ ih =>
    rw [List.append_cons]
    exact ih (h.enter hP (hnames _ List.mem_cons_self) head)
      fun e he => hnames e (List.mem_cons_of_mem _ he)

end

end Counters

end DhcpRelay
