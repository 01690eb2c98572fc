import DhcpRelay.Proofs.SortedTable
import DhcpRelay.V4.Processor

/-!
# What commands do to the handles of a processor

A handle is opened when its interface is activated or when a reply needs one, and closed when the
interface is deactivated or the processor stops. Whether a link opens is for the network to say, so
an activation adds the handle of its interface at most (`Processor.of_mem_handles_activate`), and
just that if the network opens every link (`Processor.mem_handles_activate`).
-/

namespace DhcpRelay.V4

open Interface (Property)

/-- The network opens every link. -/
def Network.OpensAll (net : Network) : Prop :=
  ∀ n name index, (net.opens n name index).isSome = true

namespace Relay

section
variable {net : Network} {t : Tracker} {r : Relay} {p : Property} {name : String} {i index : Int}

/-- What is open after an attempt was open before, or is what was attempted. -/
theorem of_mem_handles_openHandle (h : i ∈ (r.openHandle net name index).2.handles.keys) :
    i = index ∨ i ∈ r.handles.keys := by
  unfold openHandle at h
  split at h
  · exact SortedTable.mem_keys_insert.1 h
  · exact .inr h

/-- An attempt that succeeds adds its handle. -/
theorem mem_handles_openHandle (h : net.OpensAll) :
    i ∈ (r.openHandle net name index).2.handles.keys ↔ i = index ∨ i ∈ r.handles.keys := by
  unfold openHandle
  obtain ⟨mac, hmac⟩ := Option.isSome_iff_exists.1 (h r.openings.length name index)
  rw [hmac]
  exact SortedTable.mem_keys_insert

/-- What is open after an activation was open before, or is the handle of its interface. -/
theorem of_mem_handles_openLink (h : i ∈ (r.openLink net t index).handles.keys) :
    i = index ∨ i ∈ r.handles.keys := by
  unfold openLink at h
  split at h
  · exact of_mem_handles_openHandle h
  · exact .inr h

/-- An activation adds the handle of its interface, if that exists. -/
theorem mem_handles_openLink (h : net.OpensAll) (hp : t.props.get? index = some p) :
    i ∈ (r.openLink net t index).handles.keys ↔ i = index ∨ i ∈ r.handles.keys := by
  unfold openLink
  rw [hp]
  exact mem_handles_openHandle h

/-- What is open after a reply asked for a handle was open before, or is the handle of its
interface. -/
theorem of_mem_handles_handle (h : i ∈ (r.handle net p).2.handles.keys) :
    i = p.index ∨ i ∈ r.handles.keys := by
  unfold Relay.handle at h
  split at h
  · exact .inr h
  · exact of_mem_handles_openHandle h

/-- Nothing is opened for an interface that has a handle. -/
theorem handle_of_mem (h : p.index ∈ r.handles.keys) : (r.handle net p).2 = r := by
  obtain ⟨handle, hhandle⟩ := SortedTable.mem_keys_iff.1 h
  unfold Relay.handle
  rw [hhandle]

end

end Relay

namespace Processor

/-- Obeys commands one after another. -/
def performAll (net : Network) (t : Tracker) (cs : List Command) (p : Processor) : Processor :=
  cs.foldl (fun p c => p.perform net t c) p

section
variable {net : Network} {t : Tracker} {p : Processor} {binds : Nat → Bool} {cs : List Command}
  {is : List Int} {i : Int}

@[simp] theorem performAll_cons (c : Command) (cs : List Command) (p : Processor) :
    p.performAll net t (c :: cs) = (p.perform net t c).performAll net t cs := rfl

/-- Deactivations close the handles of their indices. -/
theorem mem_handles_deactivate :
    i ∈ (p.performAll net t (is.map .deactivate)).relay.handles.keys ↔
      i ∉ is ∧ i ∈ p.relay.handles.keys := by
  induction is generalizing p with
  | nil => simp [performAll]
  | cons j is ih =>
    rw [List.map_cons, performAll_cons, ih]
    simp only [perform, Relay.closeLink, SortedTable.mem_keys_erase, List.mem_cons, not_or]
    rw [and_left_comm, and_assoc]

/-- What is open after activations was open before, or is activated. -/
theorem of_mem_handles_activate
    (h : i ∈ (p.performAll net t (is.map .activate)).relay.handles.keys) :
    i ∈ is ∨ i ∈ p.relay.handles.keys := by
  induction is generalizing p with
  | nil => exact .inr h
  | cons j is ih =>
    rcases ih h with hi | hi
    · exact .inl (List.mem_cons_of_mem j hi)
    · rcases Relay.of_mem_handles_openLink hi with rfl | hi
      · exact .inl List.mem_cons_self
      · exact .inr hi

/-- If every link opens, activations of interfaces that exist open the handles of their indices. -/
theorem mem_handles_activate (h : net.OpensAll) (his : ∀ i ∈ is, ∃ q, t.props.get? i = some q) :
    i ∈ (p.performAll net t (is.map .activate)).relay.handles.keys ↔
      i ∈ is ∨ i ∈ p.relay.handles.keys := by
  induction is generalizing p with
  | nil => simp [performAll]
  | cons j is ih =>
    obtain ⟨q, hq⟩ := his j List.mem_cons_self
    rw [List.map_cons, performAll_cons, ih fun i hi => his i (List.mem_cons_of_mem j hi)]
    simp only [perform, Relay.mem_handles_openLink h hq, List.mem_cons]
    rw [or_left_comm, or_assoc]

/-- Commands that do not stop the service leave it as it is. -/
theorem running_performAll (h : .stop ∉ cs) : (p.performAll net t cs).running = p.running := by
  induction cs generalizing p with
  | nil => rfl
  | cons c cs ih =>
    obtain ⟨hc, hcs⟩ := not_or.1 fun hm => h (List.mem_cons.2 hm)
    refine (ih hcs).trans ?_
    cases c with
    | stop => exact absurd rfl hc
    | createInterface | deleteInterface | activate | deactivate => rfl

/-! ## Starts -/

/-- A start leaves the relay alone, whether it fails or not. -/
@[simp] theorem relay_start : (p.start binds).2.relay = p.relay := by
  unfold start
  split
  · rfl
  · split <;> rfl

/-- A start fails or leaves the processor serving. -/
theorem running_of_started (h : (p.start binds).1 = none) : (p.start binds).2.running = true := by
  unfold start at h ⊢
  split at h
  · next hrun =>
    rw [if_pos hrun]
    exact hrun
  · next hrun =>
    rw [if_neg hrun]
    split at h
    · next hbinds => rw [if_pos hbinds]
    · cases h

/-- No start fails as long as the socket opens. -/
theorem start_of_granted (h : ∀ n, binds n = true) : (p.start binds).1 = none := by
  unfold start
  split
  · rfl
  · rw [if_pos (h _)]

end

end Processor

end DhcpRelay.V4
