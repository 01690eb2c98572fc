import DhcpRelay.Processor.Recorder
import DhcpRelay.Proofs.SortedTable

/-!
# The log of a recorder

The log of a recorder can be read on its own, from the front: it says whether the processor is
serving and which indices are activated (`Call.servingAfter`, `Call.activatedAfter`). In an orderly
log an index is activated only while the processor is serving and the index is not activated, and
deactivated only while it is (`Call.Orderly`).

A recorder whose starts do not fail is `Faithful`: its state is what its log says. The commands it
obeys keep it so if they fit its state (`Recorder.Ready`).
-/

namespace DhcpRelay

/-! ## Reading a log -/

namespace Call

/-- Whether a processor is serving after a call, if a start does not fail. -/
def serving (before : Bool) : Call → Bool
  | .start => true
  | .command .stop => false
  | .command _ => before

/-- Whether an index is activated after a call. -/
def activated (index : Int) (before : Bool) : Call → Bool
  | .command .stop => false
  | .command (.activate i) => if i = index then true else before
  | .command (.deactivate i) => if i = index then false else before
  | _ => before

/-- Whether a processor is serving after all calls of a log. -/
def servingAfter (log : List Call) : Bool := log.foldl serving false

/-- Whether an index is activated after all calls of a log. -/
def activatedAfter (log : List Call) (index : Int) : Bool := log.foldl (activated index) false

/-- Whether a call fits what was told before it. -/
def Fits (log : List Call) : Call → Prop
  | .command (.activate i) => servingAfter log = true ∧ activatedAfter log i = false
  | .command (.deactivate i) => activatedAfter log i = true
  | _ => True

/-- Every call of a log fits what was told before it. -/
def Orderly (log : List Call) : Prop := ∀ pre c post, log = pre ++ c :: post → c.Fits pre

section
variable {log : List Call} {c : Call}

@[simp] theorem servingAfter_append (c : Call) :
    servingAfter (log ++ [c]) = c.serving (servingAfter log) := by
  simp [servingAfter]

@[simp] theorem activatedAfter_append (c : Call) (i : Int) :
    activatedAfter (log ++ [c]) i = c.activated i (activatedAfter log i) := by
  simp [activatedAfter]

/-- Nothing was told yet. -/
theorem Orderly.nil : Orderly [] := fun pre c post h => by simp at h

/-- A log stays orderly by a call that fits it. -/
theorem Orderly.append (h : Orderly log) (hc : c.Fits log) : Orderly (log ++ [c]) := by
  intro pre d post he
  rcases List.eq_nil_or_concat post with rfl | ⟨post, e, rfl⟩
  · obtain ⟨rfl, hd⟩ := List.append_inj' he rfl
    obtain rfl := List.head_eq_of_cons_eq hd
    exact hc
  · have he' : log ++ [c] = (pre ++ d :: post) ++ [e] := by simpa using he
    exact h pre d post (List.append_inj' he' rfl).1

/-- An index that is activated stays so until it is deactivated or the processor is stopped. -/
theorem mem_of_foldl_activated_eq_false {i : Int} {mid : List Call}
    (h : mid.foldl (activated i) true = false) :
    .command (.deactivate i) ∈ mid ∨ .command .stop ∈ mid := by
  induction mid with
  | nil => cases h
  | cons c mid ih =>
    rw [List.foldl_cons] at h
    by_cases hc : c.activated i true = true
    · rw [hc] at h
      exact (ih h).imp (List.mem_cons_of_mem c) (List.mem_cons_of_mem c)
    · unfold activated at hc
      split at hc
      · exact .inr List.mem_cons_self
      · simp at hc
      · next j =>
        by_cases hj : j = i
        · exact .inl (hj ▸ List.mem_cons_self)
        · simp [hj] at hc
      · simp at hc

/-- Between two activations of an index in an orderly log there is its deactivation, or a stop. -/
theorem Orderly.mem_between (h : Orderly log) {i : Int} {pre mid post : List Call}
    (he : log = pre ++ .command (.activate i) :: mid ++ .command (.activate i) :: post) :
    .command (.deactivate i) ∈ mid ∨ .command .stop ∈ mid := by
  have hf : activatedAfter (pre ++ .command (.activate i) :: mid) i = false := (h _ _ _ he).2
  refine mem_of_foldl_activated_eq_false (i := i) ?_
  simpa [activatedAfter, activated] using hf

end

end Call

/-! ## Commands -/

namespace Recorder

/-- Obeys commands in their order. -/
def performAll (cs : List Command) (r : Recorder) : Recorder := cs.foldl (fun r c => r.perform c) r

/-- A recorder serves as another one, or not, began and ceased as often, and its starts fail or do
not. -/
structure Steady (r s : Recorder) : Prop where
  running_eq : s.running = r.running
  failStart_eq : s.failStart = r.failStart
  starts_eq : s.starts = r.starts
  stops_eq : s.stops = r.stops

section
variable {r s t : Recorder} {c : Command} {cs : List Command}

theorem Steady.refl (r : Recorder) : r.Steady r := ⟨rfl, rfl, rfl, rfl⟩

theorem Steady.trans (h : r.Steady s) (k : s.Steady t) : r.Steady t :=
  ⟨k.running_eq.trans h.running_eq, k.failStart_eq.trans h.failStart_eq,
    k.starts_eq.trans h.starts_eq, k.stops_eq.trans h.stops_eq⟩

@[simp] theorem performAll_cons (c : Command) (cs : List Command) (r : Recorder) :
    r.performAll (c :: cs) = (r.perform c).performAll cs := rfl

@[simp] theorem calls_perform : (r.perform c).calls = r.calls ++ [.command c] := by
  cases c <;> rfl

/-- Commands are logged in their order. -/
theorem calls_performAll (cs : List Command) (r : Recorder) :
    (r.performAll cs).calls = r.calls ++ cs.map .command := by
  induction cs generalizing r with
  | nil => simp [performAll]
  | cons c cs ih => rw [performAll_cons, ih, calls_perform, List.append_assoc]; rfl

/-- Only a stop ends the service. -/
theorem steady_perform (h : c ≠ .stop) : r.Steady (r.perform c) := by
  cases c with
  | stop => exact absurd rfl h
  | createInterface | deleteInterface | activate | deactivate => exact ⟨rfl, rfl, rfl, rfl⟩

/-- Commands that do not stop the service leave it as it is. -/
theorem steady_performAll (h : .stop ∉ cs) : r.Steady (r.performAll cs) := by
  induction cs generalizing r with
  | nil => exact .refl r
  | cons c cs ih =>
    obtain ⟨hc, hcs⟩ := not_or.1 (fun hm => h (List.mem_cons.2 hm))
    exact (steady_perform (Ne.symm hc)).trans (ih hcs)

/-- Activations add their indices to the activated ones. -/
theorem mem_held_activate {is : List Int} {i : Int} :
    i ∈ (r.performAll (is.map .activate)).held.keys ↔ i ∈ is ∨ i ∈ r.held.keys := by
  induction is generalizing r with
  | nil => simp [performAll]
  | cons j is ih =>
    rw [List.map_cons, performAll_cons, ih]
    simp only [perform, record, SortedTable.mem_keys_insert, List.mem_cons]
    rw [or_left_comm, or_assoc]

/-- Deactivations take their indices from the activated ones. -/
theorem mem_held_deactivate {is : List Int} {i : Int} :
    i ∈ (r.performAll (is.map .deactivate)).held.keys ↔ i ∉ is ∧ i ∈ r.held.keys := by
  induction is generalizing r with
  | nil => simp [performAll]
  | cons j is ih =>
    rw [List.map_cons, performAll_cons, ih]
    simp only [perform, record, SortedTable.mem_keys_erase, List.mem_cons, not_or]
    rw [and_left_comm, and_assoc]

/-- Commands that leave the records of interfaces alone one by one do so together. -/
theorem interfaces_performAll
    (h : ∀ c ∈ cs, ∀ r : Recorder, (r.perform c).interfaces = r.interfaces) (r : Recorder) :
    (r.performAll cs).interfaces = r.interfaces := by
  induction cs generalizing r with
  | nil => rfl
  | cons c cs ih =>
    rw [performAll_cons, ih fun d hd => h d (List.mem_cons_of_mem c hd)]
    exact h c List.mem_cons_self r

/-- Activations leave the records of interfaces alone. -/
theorem interfaces_activate (is : List Int) (r : Recorder) :
    (r.performAll (is.map .activate)).interfaces = r.interfaces :=
  interfaces_performAll (List.forall_mem_map.2 fun _ _ _ => rfl) r

/-- Deactivations leave the records of interfaces alone. -/
theorem interfaces_deactivate (is : List Int) (r : Recorder) :
    (r.performAll (is.map .deactivate)).interfaces = r.interfaces :=
  interfaces_performAll (List.forall_mem_map.2 fun _ _ _ => rfl) r

end

/-! ## Starts -/

/-- The recorder after a start that did not fail. -/
def begun (r : Recorder) : Recorder :=
  { r with calls := r.calls ++ [.start], running := true,
           starts := if r.running then r.starts else r.starts + 1 }

section
variable {r : Recorder} (family : Family)

/-- A start that fails is logged and nothing else. -/
theorem start_of_failStart (h : r.failStart = true) :
    r.start family = (some (.simulated family), r.record .start) := by
  simp [start, record, h]

/-- A start that does not fail begins the service unless it has begun. -/
theorem start_of_not_failStart (h : r.failStart = false) :
    r.start family = (none, r.begun) := by
  cases hr : r.running <;> simp [start, record, begun, h, hr]

end

/-! ## A log that can be trusted -/

/-- The state of a recorder is what its log says, and the log is orderly. -/
structure Faithful (r : Recorder) : Prop where
  running_eq : r.running = Call.servingAfter r.calls
  mem_held_iff : ∀ i, i ∈ r.held.keys ↔ Call.activatedAfter r.calls i = true
  orderly : Call.Orderly r.calls

/-- Whether a command fits the state of a recorder. -/
def Ready (r : Recorder) : Command → Prop
  | .activate i => r.running = true ∧ i ∉ r.held.keys
  | .deactivate i => i ∈ r.held.keys
  | _ => True

section
variable {r : Recorder} {c : Command}

/-- A recorder that was told nothing. -/
theorem Faithful.fresh : Faithful {} := ⟨rfl, fun i => by simp [Call.activatedAfter], .nil⟩

/-- A command that fits the state of a faithful recorder fits its log. -/
theorem Faithful.fits (h : r.Faithful) (hc : r.Ready c) : Call.Fits r.calls (.command c) := by
  cases c with
  | stop | createInterface | deleteInterface => trivial
  | activate i => exact ⟨h.running_eq ▸ hc.1, by simpa [h.mem_held_iff] using hc.2⟩
  | deactivate i => exact (h.mem_held_iff i).1 hc

/-- A recorder stays faithful by a command that fits. -/
theorem Faithful.perform (h : r.Faithful) (hc : r.Ready c) : (r.perform c).Faithful where
  running_eq := by
    rw [calls_perform, Call.servingAfter_append, ← h.running_eq]
    cases c <;> rfl
  mem_held_iff i := by
    rw [calls_perform, Call.activatedAfter_append]
    cases c with
    | stop => simp [Recorder.perform, Call.activated]
    | createInterface | deleteInterface => exact h.mem_held_iff i
    | activate j =>
      by_cases hj : j = i
      · simp [Recorder.perform, Call.activated, hj]
      · simp [Recorder.perform, record, Call.activated, hj, Ne.symm hj, h.mem_held_iff]
    | deactivate j =>
      by_cases hj : j = i
      · simp [Recorder.perform, Call.activated, hj]
      · simp [Recorder.perform, record, Call.activated, hj, Ne.symm hj, h.mem_held_iff]
  orderly := by
    rw [calls_perform]
    exact h.orderly.append (h.fits hc)

/-- A recorder stays faithful by a start that does not fail. -/
theorem Faithful.begun (h : r.Faithful) : r.begun.Faithful where
  running_eq := by simp [Recorder.begun, Call.serving]
  mem_held_iff i := by
    rw [Recorder.begun, Call.activatedAfter_append]
    exact h.mem_held_iff i
  orderly := h.orderly.append trivial

/-- A faithful recorder stays so when indices that it holds are deactivated, each once. -/
theorem Faithful.deactivate (h : r.Faithful) {is : List Int} (hn : is.Nodup)
    (hheld : ∀ i ∈ is, i ∈ r.held.keys) : (r.performAll (is.map .deactivate)).Faithful := by
  induction is generalizing r with
  | nil => exact h
  | cons i is ih =>
    obtain ⟨hi, hn⟩ := List.nodup_cons.1 hn
    refine ih (h.perform (c := .deactivate i) (hheld i List.mem_cons_self)) hn fun j hj => ?_
    refine SortedTable.mem_keys_erase.2 ⟨?_, hheld j (List.mem_cons_of_mem i hj)⟩
    rintro rfl
    exact hi hj

/-- A faithful recorder stays so when indices that it does not hold are activated, each once, while
it is serving. -/
theorem Faithful.activate (h : r.Faithful) {is : List Int} (hn : is.Nodup)
    (hrun : r.running = true) (hheld : ∀ i ∈ is, i ∉ r.held.keys) :
    (r.performAll (is.map .activate)).Faithful := by
  induction is generalizing r with
  | nil => exact h
  | cons i is ih =>
    obtain ⟨hi, hn⟩ := List.nodup_cons.1 hn
    refine ih (h.perform (c := .activate i) ⟨hrun, hheld i List.mem_cons_self⟩) hn hrun
      fun j hj hm => ?_
    rcases SortedTable.mem_keys_insert.1 hm with rfl | hm
    · exact hi hj
    · exact hheld j (List.mem_cons_of_mem i hj) hm

end

end Recorder

end DhcpRelay
