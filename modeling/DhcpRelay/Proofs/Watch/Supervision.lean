import DhcpRelay.Proofs.History
import DhcpRelay.Watch.Feed

/-!
# Supervised runs of the feed

Under supervision a reading that fails ends a run, and another run goes on with the same feed. A
failed reading leaves the feed as it was, and events are passed on only after a reading that
succeeded, so the runs together pass on what one run without failures would: the events between
consecutive snapshots that could be read (`Snapshot.diffs`), as far as the receiver takes them.

Whatever the runs are, readings are taken up one by one. What one reading adds is said by
`Feed.runs_cons_of_error`, `Feed.runs_cons_of_overflow` and `Feed.runs_cons_of_room`, and an account
of all of them (`Feed.Account`) follows by induction. Supervision is these runs with the delays
between them (`Feed.supervise_eq`).
-/

namespace DhcpRelay.Watch

open Interface (Event)

/-- The events between consecutive snapshots, the first of which is `s`. -/
def Snapshot.diffs (s : Snapshot) (later : List Snapshot) : List Event :=
  (History.steps s later).flatMap fun step => step.1.diff step.2

theorem Snapshot.diffs_cons (s t : Snapshot) (later : List Snapshot) :
    s.diffs (t :: later) = s.diff t ++ t.diffs later := rfl

theorem Snapshot.diffs_append (s : Snapshot) (ts us : List Snapshot) :
    s.diffs (ts ++ us) = s.diffs ts ++ (ts.getLastD s).diffs us := by
  rw [diffs, History.steps_append, List.flatMap_append, ← diffs, ← diffs]

/-- The snapshots that readings give. -/
def readings (polls : List PollAnswer) : List Snapshot := polls.filterMap (·.snapshot.toOption)

/-- Why a reading fails, if it does. -/
def PollAnswer.failure? (answer : PollAnswer) : Option FeedError :=
  match answer.snapshot with
  | .error e => some e
  | .ok _ => none

/-- Why readings fail, a reason for each one that does. -/
def failures (polls : List PollAnswer) : List FeedError := polls.filterMap PollAnswer.failure?

section
variable {answer : PollAnswer} {polls : List PollAnswer} {e : FeedError} {next : Snapshot}

theorem readings_cons_of_error (h : answer.snapshot = .error e) :
    readings (answer :: polls) = readings polls :=
  List.filterMap_cons_none (by rw [h]; rfl)

theorem readings_cons_of_ok (h : answer.snapshot = .ok next) :
    readings (answer :: polls) = next :: readings polls :=
  List.filterMap_cons_some (by rw [h]; rfl)

theorem readings_append (polls later : List PollAnswer) :
    readings (polls ++ later) = readings polls ++ readings later :=
  List.filterMap_append

theorem failures_cons_of_error (h : answer.snapshot = .error e) :
    failures (answer :: polls) = e :: failures polls :=
  List.filterMap_cons_some (by rw [PollAnswer.failure?, h])

theorem failures_cons_of_ok (h : answer.snapshot = .ok next) :
    failures (answer :: polls) = failures polls :=
  List.filterMap_cons_none (by rw [PollAnswer.failure?, h])

end

namespace Feed

/-! ## What a receiver takes -/

/-- What of some events a receiver takes before it goes away. -/
def received (room : Option Nat) (events : List Event) : List Event :=
  match room with
  | none => events
  | some n => events.take n

section
variable {room : Option Nat} {m n : Nat} {es fs : List Event}

theorem received_nil (room : Option Nat) : received room [] = [] := by
  cases room <;> simp [received]

/-- A receiver that takes some events takes the following ones as the room that is left allows. -/
theorem received_append (h : overflows room es.length = false) :
    received room (es ++ fs) = es ++ received (room.map (· - es.length)) fs := by
  cases room with
  | none => rfl
  | some k =>
    have hle : es.length ≤ k := by simpa [overflows] using h
    simp [received, List.take_append, List.take_of_length_le hle]

theorem overflows_zero (room : Option Nat) : overflows room 0 = false := by
  cases room <;> simp [overflows]

theorem overflows_add (h : overflows room m = false) :
    overflows room (m + n) = overflows (room.map (· - m)) n := by
  cases room with
  | none => rfl
  | some k =>
    have hle : m ≤ k := by simpa [overflows] using h
    simp only [overflows, Option.any_some, Option.map_some, decide_eq_decide]
    omega

theorem overflows_mono (h : overflows room m = true) (hle : m ≤ n) : overflows room n = true := by
  cases room with
  | none => cases h
  | some k =>
    have hlt : k < m := by simpa [overflows] using h
    simpa [overflows] using Nat.lt_of_lt_of_le hlt hle

end

/-! ## One reading of a run -/

section
variable {f : Feed} {room : Option Nat} {k : Nat} {answer : PollAnswer} {polls : List PollAnswer}
  {e : FeedError} {next : Snapshot}

theorem poll_of_error (h : answer.snapshot = .error e) : f.poll answer = (.error e, f) := by
  rw [poll, h, advance]

theorem poll_of_ok (h : answer.snapshot = .ok next) :
    f.poll answer = (.ok (f.last.diff next), ⟨next⟩) := by
  rw [poll, h, advance]

/-- A reading that fails ends the run. -/
theorem run_cons_of_error (h : answer.snapshot = .error e) :
    f.run room (answer :: polls) = ⟨[], .failed e, f, room, polls⟩ := by
  rw [run, poll_of_error h]

/-- A reading whose events find the receiver gone ends the run. -/
theorem run_cons_of_overflow (h : answer.snapshot = .ok next)
    (hover : overflows room (f.last.diff next).length = true) :
    f.run room (answer :: polls) =
      ⟨received room (f.last.diff next), .closed, ⟨next⟩, some 0, polls⟩ := by
  rw [run, poll_of_ok h]
  cases room with
  | none => cases hover
  | some n => simp only [hover, reduceIte, received, Option.getD_some]

/-- After any other reading the run goes on. -/
theorem run_cons_of_room (h : answer.snapshot = .ok next)
    (hroom : overflows room (f.last.diff next).length = false) :
    f.run room (answer :: polls) =
      let later := run ⟨next⟩ (room.map (· - (f.last.diff next).length)) polls
      { later with events := f.last.diff next ++ later.events } := by
  rw [run, poll_of_ok h]
  simp only [hroom, Bool.false_eq_true, reduceIte]

end

/-! ## The runs under supervision -/

/-- The runs of a supervised feed, one after another: each begins with the feed, the room and the
readings that the one before it left. -/
def runs (f : Feed) (room : Option Nat) (polls : List PollAnswer) : List Run :=
  let r := f.run room polls
  match _h : r.ending with
  | .failed _ => r :: r.feed.runs r.room r.rest
  | .closed => [r]
  | .waiting => [r]
termination_by polls.length
decreasing_by exact length_rest_of_failed _h

/-- What the supervisor sees of the end of a run; one that goes on has not ended. -/
def RunEnd.taskEnd? : RunEnd → Option TaskEnd
  | .closed => some .finished
  | .failed _ => some .failed
  | .waiting => none

section
variable {f : Feed} {room : Option Nat} {answer : PollAnswer} {polls : List PollAnswer}
  {e : FeedError} {next : Snapshot}

theorem runs_of_failed (h : (f.run room polls).ending = .failed e) :
    f.runs room polls = f.run room polls ::
      (f.run room polls).feed.runs (f.run room polls).room (f.run room polls).rest := by
  rw [runs]
  split
  · rfl
  · simp_all
  · simp_all

theorem runs_of_not_failed (h : ∀ e, (f.run room polls).ending ≠ .failed e) :
    f.runs room polls = [f.run room polls] := by
  rw [runs]
  split
  · simp_all
  · rfl
  · rfl

theorem runs_cons_of_error (h : answer.snapshot = .error e) :
    f.runs room (answer :: polls) = ⟨[], .failed e, f, room, polls⟩ :: f.runs room polls := by
  rw [runs_of_failed (e := e) (by rw [run_cons_of_error h]), run_cons_of_error h]

theorem runs_cons_of_overflow (h : answer.snapshot = .ok next)
    (hover : overflows room (f.last.diff next).length = true) :
    f.runs room (answer :: polls) =
      [⟨received room (f.last.diff next), .closed, ⟨next⟩, some 0, polls⟩] := by
  rw [runs_of_not_failed (by rw [run_cons_of_overflow h hover]; simp),
    run_cons_of_overflow h hover]

/-- A reading whose events are taken puts them in front of what the run goes on to pass on. -/
theorem runs_cons_of_room (h : answer.snapshot = .ok next)
    (hroom : overflows room (f.last.diff next).length = false) :
    ∃ r rs, runs ⟨next⟩ (room.map (· - (f.last.diff next).length)) polls = r :: rs ∧
      f.runs room (answer :: polls) = { r with events := f.last.diff next ++ r.events } :: rs := by
  generalize hlater : run ⟨next⟩ (room.map (· - (f.last.diff next).length)) polls = later
  have hrun : f.run room (answer :: polls) = _ := run_cons_of_room h hroom
  rw [hlater] at hrun
  cases hend : later.ending with
  | failed e =>
    refine ⟨later, later.feed.runs later.room later.rest, ?_, ?_⟩
    · rw [runs_of_failed (e := e) (by rw [hlater]; exact hend), hlater]
    · rw [runs_of_failed (e := e) (by rw [hrun]; exact hend), hrun]
  | closed | waiting =>
    refine ⟨later, [], ?_, ?_⟩
    · rw [runs_of_not_failed (by rw [hlater, hend]; simp), hlater]
    · rw [runs_of_not_failed (by simp [hrun, hend]), hrun]

/-- Supervision passes on what the runs pass on, one after another, and restarts the feed as a
supervisor does whose task ends as the runs do. -/
theorem supervise_eq (f : Feed) (room : Option Nat) (k : Nat) (polls : List PollAnswer) :
    f.supervise room k polls =
      ⟨(f.runs room polls).flatMap Run.events,
        restartDelays k ((f.runs room polls).filterMap fun r => r.ending.taskEnd?),
        (f.runs room polls).any fun r => r.ending = .closed,
        ((f.runs room polls).map Run.feed).getLastD f⟩ := by
  induction f, room, k, polls using supervise.induct with
  | case1 f room k polls r h | case2 f room k polls r h =>
    have hrun : (f.run room polls).ending = _ := h
    rw [supervise, runs_of_not_failed (by simp [hrun])]
    split <;> simp_all [RunEnd.taskEnd?, restartDelays]
  | case3 f room k polls r e h ih =>
    have hrun : (f.run room polls).ending = .failed e := h
    rw [supervise, runs_of_failed hrun]
    split
    · simp_all
    · simp_all
    · simp only [r] at ih
      simp [ih, hrun, RunEnd.taskEnd?, restartDelays, -List.getLastD_eq_getLast?,
        List.getLastD_cons]

end

/-! ## An account of all readings -/

/-- How many of its readings a supervised feed takes up, and how its last run stands: either all are
taken up and all events fit, or the events of the last one that is taken up are the first not to. -/
inductive Reaches (f : Feed) (room : Option Nat) :
    List PollAnswer → List PollAnswer → RunEnd → Prop where
  | waiting {taken : List PollAnswer}
    (fits : overflows room (f.last.diffs (readings taken)).length = false) :
    Reaches f room taken [] .waiting
  | closed {before rest : List PollAnswer} {answer : PollAnswer}
    (fits : overflows room (f.last.diffs (readings before)).length = false)
    (exceeds : overflows room (f.last.diffs (readings (before ++ [answer]))).length = true) :
    Reaches f room (before ++ [answer]) rest .closed

/-- What the runs of a supervised feed come to, of which it takes up some readings: every reading of
these that fails ends a run, and only the last run does not end so; the events are those between the
snapshots of all of them; and the feed keeps the last of these. -/
structure Account (f : Feed) (room : Option Nat) (runs : List Run) (taken rest : List PollAnswer)
    (last : RunEnd) : Prop where
  reaches : Reaches f room taken rest last
  endings_eq : runs.map Run.ending = (failures taken).map .failed ++ [last]
  events_eq : runs.flatMap Run.events = received room (f.last.diffs (readings taken))
  last_eq : ((runs.map Run.feed).getLastD f).last = (readings taken).getLastD f.last

section
variable {f : Feed} {room : Option Nat} {answer : PollAnswer} {taken rest polls : List PollAnswer}
  {e : FeedError} {next : Snapshot} {last : RunEnd}

theorem length_diffs_cons (h : answer.snapshot = .ok next) :
    (f.last.diffs (readings (answer :: taken))).length =
      (f.last.diff next).length + (next.diffs (readings taken)).length := by
  rw [readings_cons_of_ok h, Snapshot.diffs_cons, List.length_append]

theorem Reaches.cons_of_error (h : answer.snapshot = .error e)
    (hr : Reaches f room taken rest last) :
    Reaches f room (answer :: taken) rest last := by
  cases hr with
  | waiting fits => exact .waiting (by rwa [readings_cons_of_error h])
  | @closed before _ final fits exceeds =>
    refine @closed f room (answer :: before) rest final ?_ ?_
    · rwa [readings_cons_of_error h]
    · rwa [List.cons_append, readings_cons_of_error h]

theorem Reaches.cons_of_room (h : answer.snapshot = .ok next)
    (hroom : overflows room (f.last.diff next).length = false)
    (hr : Reaches ⟨next⟩ (room.map (· - (f.last.diff next).length)) taken rest last) :
    Reaches f room (answer :: taken) rest last := by
  cases hr with
  | waiting fits => exact .waiting (by rwa [length_diffs_cons h, overflows_add hroom])
  | @closed before _ final fits exceeds =>
    refine @closed f room (answer :: before) rest final ?_ ?_
    · rwa [length_diffs_cons h, overflows_add hroom]
    · rwa [List.cons_append, length_diffs_cons h, overflows_add hroom]

/-- A receiver is found gone exactly when all events together are more than it takes. -/
theorem Reaches.closed_iff (hr : Reaches f room taken rest last) :
    last = .closed ↔
      overflows room (f.last.diffs (readings (taken ++ rest))).length = true := by
  cases hr with
  | waiting fits => simp [fits]
  | @closed before _ final _ exceeds =>
    simp only [true_iff]
    refine overflows_mono exceeds ?_
    rw [readings_append (before ++ [final]), Snapshot.diffs_append, List.length_append]
    exact Nat.le_add_right _ _

/-- The runs of a supervised feed have an account. -/
theorem exists_account (f : Feed) (room : Option Nat) (polls : List PollAnswer) :
    ∃ taken rest last, polls = taken ++ rest ∧
      Account f room (f.runs room polls) taken rest last := by
  induction polls generalizing f room with
  | nil =>
    have hruns : f.runs room [] = [⟨[], .waiting, f, room, []⟩] :=
      runs_of_not_failed (by simp [run])
    refine ⟨[], [], .waiting, rfl, ⟨.waiting (overflows_zero room), ?_, ?_, ?_⟩⟩
    · rw [hruns]
      rfl
    · rw [hruns]
      exact (received_nil room).symm
    · rw [hruns]
      rfl
  | cons answer polls ih =>
    cases hr : answer.snapshot with
    | error e =>
      obtain ⟨taken, rest, last, hpolls, ha⟩ := ih f room
      refine ⟨answer :: taken, rest, last, by rw [hpolls, List.cons_append],
        ⟨ha.reaches.cons_of_error hr, ?_, ?_, ?_⟩⟩
      · rw [runs_cons_of_error hr, failures_cons_of_error hr, List.map_cons, ha.endings_eq,
          List.map_cons, List.cons_append]
      · rw [runs_cons_of_error hr, readings_cons_of_error hr, List.flatMap_cons, ha.events_eq,
          List.nil_append]
      · rw [runs_cons_of_error hr, readings_cons_of_error hr, List.map_cons, List.getLastD_cons,
          ha.last_eq]
    | ok next =>
      cases hroom : overflows room (f.last.diff next).length with
      | true =>
        have hdiffs : f.last.diffs (readings [answer]) = f.last.diff next := by
          rw [readings_cons_of_ok hr, Snapshot.diffs_cons]
          exact List.append_nil _
        refine ⟨[answer], polls, .closed, rfl,
          ⟨@Reaches.closed f room [] polls answer (overflows_zero room) ?_, ?_, ?_, ?_⟩⟩
        · rwa [List.nil_append, hdiffs]
        · rw [runs_cons_of_overflow hr hroom, failures_cons_of_ok hr]
          rfl
        · rw [runs_cons_of_overflow hr hroom, hdiffs]
          exact List.append_nil _
        · rw [runs_cons_of_overflow hr hroom, readings_cons_of_ok hr]
          rfl
      | false =>
        obtain ⟨taken, rest, last, hpolls, ha⟩ :=
          ih ⟨next⟩ (room.map (· - (f.last.diff next).length))
        obtain ⟨r, rs, hlater, hruns⟩ := @runs_cons_of_room f room answer polls next hr hroom
        rw [hlater] at ha
        refine ⟨answer :: taken, rest, last, by rw [hpolls, List.cons_append],
          ⟨ha.reaches.cons_of_room hr hroom, ?_, ?_, ?_⟩⟩
        · rw [hruns, failures_cons_of_ok hr, ← ha.endings_eq, List.map_cons, List.map_cons]
        · rw [hruns, readings_cons_of_ok hr, Snapshot.diffs_cons, received_append hroom,
            ← ha.events_eq, List.flatMap_cons, List.flatMap_cons, List.append_assoc]
        · rw [hruns, readings_cons_of_ok hr, List.getLastD_cons, ← ha.last_eq, List.map_cons,
            List.map_cons, List.getLastD_cons, List.getLastD_cons]

/-! ## Supervision as a whole -/

/-- The delays before the restarts of a task that fails some times in a row. -/
theorem restartDelays_replicate (k n : Nat) (ends : List TaskEnd) :
    restartDelays k (List.replicate n .failed ++ ends) =
      (List.range n).map (fun r => backoff (k + r + 1)) ++ restartDelays (k + n) ends := by
  induction n generalizing k with
  | zero => rfl
  | succ n ih =>
    rw [List.replicate_succ, List.cons_append, restartDelays, ih, List.range_succ_eq_map,
      List.map_cons, List.map_map, List.cons_append]
    simp [Function.comp_def, Nat.add_assoc, Nat.add_comm 1]

/-- What the supervisor sees: a failure for every reading that fails, and then how the last run
ended, if it did. -/
theorem Account.taskEnds_eq {rs : List Run} (ha : Account f room rs taken rest last) :
    rs.filterMap (fun r => r.ending.taskEnd?) =
      List.replicate (failures taken).length .failed ++ last.taskEnd?.toList := by
  have hfailed : ((failures taken).map RunEnd.failed).filterMap RunEnd.taskEnd? =
      List.replicate (failures taken).length TaskEnd.failed := by
    rw [List.filterMap_map]
    exact (congrFun List.filterMap_eq_map' _).trans List.map_const'
  calc rs.filterMap (fun r => r.ending.taskEnd?)
      = (rs.map Run.ending).filterMap RunEnd.taskEnd? := by
        rw [List.filterMap_map, Function.comp_def]
    _ = List.replicate (failures taken).length .failed ++ last.taskEnd?.toList := by
      rw [ha.endings_eq, List.filterMap_append, hfailed]
      cases last <;> rfl

/-- The delays before the restarts: that of the first failure, of the second, and so on. -/
theorem Account.delays_eq {rs : List Run} (ha : Account f room rs taken rest last) :
    restartDelays 0 (rs.filterMap fun r => r.ending.taskEnd?) =
      (List.range (failures taken).length).map fun r => backoff (r + 1) := by
  rw [ha.taskEnds_eq, restartDelays_replicate]
  cases ha.reaches with
  | waiting | closed => simp [RunEnd.taskEnd?, restartDelays]

/-- Some run finds the receiver gone exactly when the last one does. -/
theorem Account.any_closed {rs : List Run} (ha : Account f room rs taken rest last) :
    (rs.any fun r => r.ending = .closed) = decide (last = .closed) := by
  calc (rs.any fun r => r.ending = .closed)
      = (rs.map Run.ending).any (· = .closed) := by rw [List.any_map, Function.comp_def]
    _ = decide (last = .closed) := by rw [ha.endings_eq]; simp

/-- The feed keeps the last snapshot of readings that are taken one after another. -/
theorem last_foldl_poll (f : Feed) (polls : List PollAnswer) :
    (polls.foldl (fun f answer => (f.poll answer).2) f).last =
      (readings polls).getLastD f.last := by
  induction polls generalizing f with
  | nil => rfl
  | cons answer polls ih =>
    rw [List.foldl_cons, ih]
    cases hr : answer.snapshot with
    | error e => rw [poll_of_error hr, readings_cons_of_error hr]
    | ok next => rw [poll_of_ok hr, readings_cons_of_ok hr, List.getLastD_cons]

/-- A feed that was polled at startup, whatever came of it, is run under supervision with readings
of any outcome, for a receiver that may go away at any time. Of its readings it takes up all, unless
the events of one of them find the receiver gone; then this one is the last. The receiver gets the
events between consecutive snapshots, from the one that was last read before, as far as it takes
them. Every reading that fails ends one run with its reason and is followed by one restart after the
delay of so many failures; no other run ends, but for one whose events find the receiver gone, and
with that supervision ends. -/
theorem supervision_loses_no_event (startup polls : List PollAnswer) (room : Option Nat) :
    let f := startup.foldl (fun f answer => (f.poll answer).2) ({} : Feed)
    let s := f.supervise room 0 polls
    f.last = (readings startup).getLastD ∅ ∧
    ∃ taken rest last, polls = taken ++ rest ∧ Reaches f room taken rest last ∧
      (f.runs room polls).map Run.ending = (failures taken).map .failed ++ [last] ∧
      s.events = (f.runs room polls).flatMap Run.events ∧
      s.events = received room (f.last.diffs (readings taken)) ∧
      s.feed.last = (readings taken).getLastD f.last ∧
      s.delays = (List.range (failures taken).length).map (fun r => min (500 * (r + 1)) 10000) ∧
      (s.ended = true ↔ last = .closed) ∧
      (s.ended = true ↔
        overflows room (f.last.diffs (readings polls)).length = true) := by
  intro f s
  obtain ⟨taken, rest, last, hpolls, ha⟩ := exists_account f room polls
  have hs : s = _ := supervise_eq f room 0 polls
  have hended : s.ended = true ↔ last = .closed := by
    rw [hs, ha.any_closed, decide_eq_true_iff]
  refine ⟨last_foldl_poll {} startup, taken, rest, last, hpolls, ha.reaches, ha.endings_eq, ?_, ?_,
    ?_, ?_, hended, ?_⟩
  · rw [hs]
  · rw [hs, ha.events_eq]
  · rw [hs, ha.last_eq]
  · rw [hs, ha.delays_eq]
    rfl
  · rw [hended, ha.reaches.closed_iff, hpolls]

end

end Feed

end DhcpRelay.Watch
