import DhcpRelay.Text.Utf8
import DhcpRelay.Watch.Snapshot

/-!
# The interface feed

The feed reads the interface listing again and again and passes on the events that lead from one
snapshot to the next. It keeps the last snapshot that could be read, so a reading that fails
changes nothing and the next one takes up where the last good one left off. A failure ends a run of
the feed; the supervisor starts another one.
-/

namespace DhcpRelay.Watch

open Interface (Event)

/-- What one call of the listing command gives. -/
inductive PollAnswer where
  | absent
  /-- The command ended with a code, after writing octets to its two outputs. -/
  | exited (code : Int) (out err : Bytes)
  deriving DecidableEq, Repr

/-- Why a reading fails. -/
inductive FeedError where
  | noCommand
  | commandFailed (report : String)
  | badListing
  deriving DecidableEq, Repr

/-- The wording of a failure. -/
def FeedError.message : FeedError → String
  | .noCommand => "failed to execute ip"
  | .commandFailed report => "ip failed: " ++ report
  | .badListing => "invalid `ip -j addr` output"

/-- The snapshot that a listing in text gives. -/
def readListing (text : String) : Except FeedError Snapshot :=
  match Snapshot.parse? text with
  | some s => .ok s
  | none => .error .badListing

/-- The snapshot that a call of the command gives. -/
def PollAnswer.snapshot : PollAnswer → Except FeedError Snapshot
  | .absent => .error .noCommand
  | .exited code out err =>
    if code = 0 then readListing (Utf8.decodeLossy out)
    else .error (.commandFailed (Utf8.decodeLossy err))

/-- The state of the feed. -/
structure Feed where
  last : Snapshot := ∅
  deriving DecidableEq

namespace Feed

/-- Takes a reading: the events since the last good one. -/
def advance (f : Feed) : Except FeedError Snapshot → Except FeedError (List Event) × Feed
  | .error e => (.error e, f)
  | .ok next => (.ok (f.last.diff next), ⟨next⟩)

/-- Calls the command once. -/
def poll (f : Feed) (answer : PollAnswer) : Except FeedError (List Event) × Feed :=
  f.advance answer.snapshot

/-! ## Runs -/

/-- How a run ended. -/
inductive RunEnd where
  /-- The receiver of the events is gone. -/
  | closed
  | failed (e : FeedError)
  /-- It goes on: the readings are used up. -/
  | waiting
  deriving DecidableEq, Repr

/-- What came of a run. -/
structure Run where
  events : List Event
  ending : RunEnd
  feed : Feed
  /-- How many more events the receiver takes; `none` for one that takes all. -/
  room : Option Nat
  rest : List PollAnswer

/-- Whether the receiver goes away before it has taken `n` events. -/
def overflows (room : Option Nat) (n : Nat) : Bool := room.any (· < n)

/-- Polls until a reading fails or the receiver is gone. -/
def run (f : Feed) (room : Option Nat) : List PollAnswer → Run
  | [] => ⟨[], .waiting, f, room, []⟩
  | answer :: rest =>
    match f.poll answer with
    | (.error e, f) => ⟨[], .failed e, f, room, rest⟩
    | (.ok events, f) =>
      if overflows room events.length then ⟨events.take (room.getD 0), .closed, f, some 0, rest⟩
      else
        let later := run f (room.map (· - events.length)) rest
        { later with events := events ++ later.events }

/-- A run that fails has used up a reading. -/
theorem length_rest_of_failed {f : Feed} {room : Option Nat} {polls : List PollAnswer}
    {e : FeedError} (h : (f.run room polls).ending = .failed e) :
    (f.run room polls).rest.length < polls.length := by
  induction polls generalizing f room with
  | nil => simp [run] at h
  | cons answer rest ih =>
    unfold run at h ⊢
    split
    · simp
    · split
      · simp
      · simp_all only [reduceIte, Bool.false_eq_true]
        exact Nat.lt_succ_of_lt (ih h)

end Feed

/-! ## Supervision

A task that is meant to run for ever is started again when it fails or breaks down, after a delay
that grows with every failure up to a limit. A task that ends well is not started again. -/

/-- How a run of a task ended. -/
inductive TaskEnd where
  | finished
  | failed
  | crashed
  deriving DecidableEq, Repr

/-- The milliseconds before the task is started again after this many failures. -/
def backoff (failures : Nat) : Nat := min (500 * failures) 10000

/-- The delays before each restart of a task whose runs end in the given way, after `failures`
failures before them. A run past the end of the list ends well. -/
def restartDelays (failures : Nat) : List TaskEnd → List Nat
  | [] => []
  | .finished :: _ => []
  | .failed :: rest => backoff (failures + 1) :: restartDelays (failures + 1) rest
  | .crashed :: rest => backoff (failures + 1) :: restartDelays (failures + 1) rest

namespace Feed

/-- What came of runs under supervision. -/
structure Supervised where
  events : List Event
  /-- The delays before each restart. -/
  delays : List Nat
  ended : Bool
  feed : Feed

/-- Runs the feed, again after each failure, with `failures` failures before. -/
def supervise (f : Feed) (room : Option Nat) (failures : Nat) (polls : List PollAnswer) :
    Supervised :=
  let r := f.run room polls
  match _h : r.ending with
  | .closed => ⟨r.events, [], true, r.feed⟩
  | .waiting => ⟨r.events, [], false, r.feed⟩
  | .failed _ =>
    let later := r.feed.supervise r.room (failures + 1) r.rest
    { later with
      events := r.events ++ later.events, delays := backoff (failures + 1) :: later.delays }
termination_by polls.length
decreasing_by exact length_rest_of_failed _h

end Feed

end DhcpRelay.Watch
