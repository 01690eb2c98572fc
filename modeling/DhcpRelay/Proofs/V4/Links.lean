import DhcpRelay.Proofs.V4.Peers

/-!
# Handles of links

A datagram leads to the opening of a link in one case only: a reply is to go out on an active
interface that has no handle (`Relay.links_receive`). Every handle that is opened has a number of
its own, so whatever a relay takes in, different interfaces have different handles
(`Relay.HandlesApart.run`).
-/

namespace DhcpRelay.V4.Relay

open Interface (Property)

section
variable {net : Network} {t : Tracker} {r : Relay}

/-! ## What a datagram changes -/

theorem links_sendToServers (name client : String) (payload : Bytes)
    (servers : List V4Address) :
    (r.sendToServers net name client payload servers).2.handles = r.handles ∧
      (r.sendToServers net name client payload servers).2.openings = r.openings := by
  unfold sendToServers
  dsimp only
  split <;> exact ⟨rfl, rfl⟩

theorem links_sendReply (name : String) (handle : Handle) (frame : Bytes)
    (server : V4Address) (p : Packet) :
    (r.sendReply net name handle frame server p).2.handles = r.handles ∧
      (r.sendReply net name handle frame server p).2.openings = r.openings := by
  unfold sendReply
  split <;> exact ⟨rfl, rfl⟩

/-- Which handle an interface gets does not depend on what is counted. -/
theorem links_handle_noteReply (net : Network) (r : Relay) (ingress : String) (type : MessageType)
    (p : Packet) (egress : Property) :
    ((r.noteReply ingress type p).handle net egress).2.handles = (r.handle net egress).2.handles ∧
      ((r.noteReply ingress type p).handle net egress).2.openings =
        (r.handle net egress).2.openings := by
  have hheld : (r.noteReply ingress type p).handles.get? egress.index =
      r.handles.get? egress.index := rfl
  unfold Relay.handle
  rw [hheld]
  cases r.handles.get? egress.index with
  | some h => exact ⟨rfl, rfl⟩
  | none =>
    have hlength : (r.noteReply ingress type p).openings = r.openings := rfl
    unfold openHandle
    rw [hlength]
    cases net.opens r.openings.length egress.name egress.index <;> exact ⟨rfl, rfl⟩

/-- A datagram leaves all links alone, or it is an expected reply and asks for the handle of the
interface on which its client was seen, which is active. -/
theorem links_receive (net : Network) (t : Tracker) (r : Relay) (d : Datagram) :
    ((r.receive net t d).2.handles = r.handles ∧
      (r.receive net t d).2.openings = r.openings) ∨
    ∃ ingress type p name egress, Expects t r d ingress type p name ∧
      t.activeNamed? name = some egress ∧
      (r.receive net t d).2.handles = (r.handle net egress.property).2.handles ∧
      (r.receive net t d).2.openings = (r.handle net egress.property).2.openings := by
  have hend := handled_receive net t r d
  generalize r.receive net t d = result at hend
  cases hend with
  | ignored | notActive | noAddress | hopLimit | missingServerId | unknownClient
  | egressNotActive | egressNoAddress => exact .inl ⟨rfl, rfl⟩
  | request => exact .inl (links_sendToServers _ _ _ _)
  | @handleUnavailable ingress type p name egress _ r' hexpects hegress _ hhandle =>
    have hlinks := links_handle_noteReply net r ingress.name type p egress.property
    rw [hhandle] at hlinks
    exact .inr ⟨ingress, type, p, name, egress, hexpects, hegress, hlinks⟩
  | @reply ingress type p name egress _ handle r' hexpects hegress _ hhandle =>
    have hlinks := links_handle_noteReply net r ingress.name type p egress.property
    rw [hhandle] at hlinks
    rw [(links_sendReply _ _ _ _ _).1, (links_sendReply _ _ _ _ _).2]
    exact .inr ⟨ingress, type, p, name, egress, hexpects, hegress, hlinks⟩

/-- Asking for the handle of an interface opens one link at most, that of the interface. -/
theorem openings_handle (net : Network) (r : Relay) (egress : Property) :
    (r.handle net egress).2.openings = r.openings ∨ ∃ opening, opening.index = egress.index ∧
      (r.handle net egress).2.openings = r.openings ++ [opening] := by
  unfold Relay.handle
  split
  · exact .inl rfl
  · unfold openHandle
    split
    · exact .inr ⟨⟨egress.name, egress.index, true⟩, rfl, rfl⟩
    · exact .inr ⟨⟨egress.name, egress.index, false⟩, rfl, rfl⟩

/-! ## Handles are apart -/

/-- Handles have numbers up to that of the last one that was opened, and different interfaces have
different handles. -/
structure HandlesApart (r : Relay) : Prop where
  serial_le (i : Int) (h : Handle) (hi : r.handles.get? i = some h) :
    h.serial ≤ (r.openings.filter (·.opened)).length
  index_eq (i j : Int) (h : Handle) (hi : r.handles.get? i = some h)
    (hj : r.handles.get? j = some h) : i = j

theorem HandlesApart.empty : HandlesApart {} := ⟨nofun, nofun⟩

/-- Handles stay apart where none is added and nothing is opened. -/
theorem HandlesApart.restrict {r' : Relay} (h : r.HandlesApart)
    (hheld : ∀ i x, r'.handles.get? i = some x → r.handles.get? i = some x)
    (hopenings : r'.openings = r.openings) : r'.HandlesApart where
  serial_le i x hi := by
    rw [hopenings]
    exact h.serial_le i x (hheld i x hi)
  index_eq i j x hi hj := h.index_eq i j x (hheld i x hi) (hheld j x hj)

/-- Handles are apart by what is held and what was opened. -/
theorem HandlesApart.congr {r' : Relay} (h : r.HandlesApart) (hhandles : r'.handles = r.handles)
    (hopenings : r'.openings = r.openings) : r'.HandlesApart :=
  h.restrict (fun _ _ hi => hhandles ▸ hi) hopenings

/-- A handle that is opened has the next number. -/
theorem HandlesApart.openHandle (h : r.HandlesApart) (name : String) (index : Int) :
    (r.openHandle net name index).2.HandlesApart := by
  unfold Relay.openHandle
  split
  · next mac _ =>
    refine ⟨fun i x hi => ?_, fun i j x hi hj => ?_⟩
    · dsimp only at hi ⊢
      rw [SortedTable.get?_insert_eq] at hi
      rw [List.filter_append, List.length_append]
      split at hi
      · obtain rfl := Option.some.inj hi
        simp
      · have hle := h.serial_le i x hi
        omega
    · dsimp only at hi hj
      rw [SortedTable.get?_insert_eq] at hi hj
      split at hi
      · next hindex =>
        split at hj
        · next hindex' => rw [hindex, hindex']
        · -- the new number is beyond that of every handle that was held
          obtain rfl := Option.some.inj hi
          exact absurd (h.serial_le j _ hj) (Nat.not_succ_le_self _)
      · split at hj
        · obtain rfl := Option.some.inj hj
          exact absurd (h.serial_le i _ hi) (Nat.not_succ_le_self _)
        · exact h.index_eq i j x hi hj
  · refine ⟨fun i x hi => ?_, h.index_eq⟩
    have hle := h.serial_le i x hi
    rw [List.filter_append, List.length_append]
    omega

theorem HandlesApart.handle (h : r.HandlesApart) (egress : Property) :
    (r.handle net egress).2.HandlesApart := by
  unfold Relay.handle
  split
  · exact h
  · exact h.openHandle egress.name egress.index

/-- What a relay takes in leaves handles apart. -/
theorem HandlesApart.take (h : r.HandlesApart) (i : Input) : (r.take i).HandlesApart := by
  cases i with
  | datagram net t d =>
    obtain ⟨hhandles, hopenings⟩ | ⟨-, -, -, -, egress, -, -, hhandles, hopenings⟩ :=
      links_receive net t r d
    · exact h.congr hhandles hopenings
    · exact (h.handle egress.property).congr hhandles hopenings
  | openLink net t index =>
    show (r.openLink net t index).HandlesApart
    unfold Relay.openLink
    split
    · next p _ => exact h.openHandle p.name index
    · exact h
  | closeLink index =>
    refine h.restrict (fun i x hi => ?_) rfl
    change (r.closeLink index).handles.get? i = some x at hi
    rw [closeLink, SortedTable.get?_erase_eq] at hi
    split at hi
    · cases hi
    · exact hi
  | closeLinks =>
    refine h.restrict (fun i x hi => ?_) rfl
    change (∅ : SortedTable Int Handle).get? i = some x at hi
    rw [SortedTable.get?_empty] at hi
    cases hi
  | createInterface | deleteInterface => exact h.congr rfl rfl

/-- Whatever a relay takes in, handles stay apart. -/
theorem HandlesApart.run (h : r.HandlesApart) (ins : List Input) : (r.run ins).HandlesApart := by
  induction ins generalizing r with
  | nil => exact h
  | cons i ins ih => exact ih (h.take i)

end

end DhcpRelay.V4.Relay
