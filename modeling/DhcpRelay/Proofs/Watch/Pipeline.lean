import DhcpRelay.Manager.Basic
import DhcpRelay.Proofs.Watch.Mirror

/-!
# From the listing to the tables

The feed reads the listing, its events are on their way, and the manager takes them one after
another while an operator may change the configuration at any time (`Watch.Pipeline`). The events on
their way lead from a snapshot that the tables mirror to the last one that could be read
(`Watch.Pipeline.Sound`). So when all are taken the tables mirror that one, a reading that fails
loses nothing, and every event that is taken lands.
-/

namespace DhcpRelay.Watch

open Interface (Event)

/-- The feed, the events on their way, and the manager. -/
structure Pipeline (σ₄ σ₆ : Type) where
  feed : Feed := {}
  /-- The events that the manager has not taken yet, first to last. -/
  pending : List Event := []
  manager : Manager σ₄ σ₆

namespace Pipeline

/-- What can happen. -/
inductive Step where
  | poll (answer : PollAnswer)
  | deliver
  | configure (family : Family) (o : Manager.ConfigOperation)
  deriving DecidableEq

/-- The events of a reading; one that failed has none. -/
def eventsOf : Except FeedError (List Event) → List Event
  | .ok es => es
  | .error _ => []

/-- The snapshot of a step that reads one. -/
def Step.reading? : Step → Option Snapshot
  | .poll answer => answer.snapshot.toOption
  | _ => none

/-- The last snapshot that was read in a run from the beginning. -/
def lastReading (ss : List Step) : Snapshot := (ss.filterMap Step.reading?).getLastD ∅

section
variable {σ₄ σ₆ : Type} {l : Lifecycles σ₄ σ₆} {p : Pipeline σ₄ σ₆}

/-- Lets a step happen. -/
def step (l : Lifecycles σ₄ σ₆) (p : Pipeline σ₄ σ₆) : Step → Pipeline σ₄ σ₆
  | .poll answer =>
    { p with feed := (p.feed.poll answer).2,
             pending := p.pending ++ eventsOf (p.feed.poll answer).1 }
  | .deliver =>
    match p.pending with
    | [] => p
    | e :: es => { p with pending := es, manager := p.manager.notify l e }
  | .configure family o => { p with manager := p.manager.configure l family o }

/-- Lets steps happen one after another. -/
def run (l : Lifecycles σ₄ σ₆) (p : Pipeline σ₄ σ₆) (ss : List Step) : Pipeline σ₄ σ₆ :=
  ss.foldl (step l) p

/-- The events on their way lead from a snapshot that the tables mirror to the last one. -/
def Sound (p : Pipeline σ₄ σ₆) : Prop :=
  ∃ s, p.manager.Mirrored s ∧ Snapshot.Leads Snapshot.Regular s p.pending p.feed.last

/-- Before anything happened there is nothing in the tables and nothing was read. -/
theorem Sound.fresh (p₄ : σ₄) (p₆ : σ₆) : Sound { manager := .fresh p₄ p₆ } :=
  ⟨∅, fun family kind => by cases family <;> cases kind <;> exact .empty, .done .empty⟩

/-- A reading that fails changes nothing. -/
theorem step_poll_of_error {answer : PollAnswer} {e : FeedError}
    (h : answer.snapshot = .error e) : p.step l (.poll answer) = p := by
  simp [step, Feed.poll, Feed.advance, h, eventsOf]

/-- A reading that succeeds is the last one, and the events that lead to it are on their way. -/
theorem step_poll_of_ok {answer : PollAnswer} {next : Snapshot} (h : answer.snapshot = .ok next) :
    p.step l (.poll answer) =
      { p with feed := ⟨next⟩, pending := p.pending ++ p.feed.last.diff next } := by
  simp [step, Feed.poll, Feed.advance, h, eventsOf]

/-- A step that reads a snapshot is a call of the command that gives it. -/
theorem snapshot_eq_of_reading? {answer : PollAnswer} {s : Snapshot}
    (h : (Step.poll answer).reading? = some s) : answer.snapshot = .ok s := by
  simp only [Step.reading?] at h
  cases hr : answer.snapshot with
  | error e => rw [hr] at h; cases h
  | ok next => rw [hr] at h; cases h; rfl

/-- The first event that is on its way lands, and the others lead on. -/
theorem Sound.deliver (h : p.Sound) {e : Event} {es : List Event} (hp : p.pending = e :: es)
    (l : Lifecycles σ₄ σ₆) : (p.step l .deliver).Sound ∧
      ∃ c kind, Manager.Lands p.manager (p.step l .deliver).manager e c kind := by
  obtain ⟨s, hmirrored, hleads⟩ := h
  have hstep : p.step l .deliver = { p with pending := es, manager := p.manager.notify l e } := by
    rw [step, hp]
  rw [hp] at hleads
  cases hleads with
  | step hs hr rest =>
    obtain ⟨hnext, hlands⟩ := hmirrored.notify hs hr rest.holds l
    rw [hstep]
    exact ⟨⟨_, hnext, rest⟩, hlands⟩

/-- As many deliveries as events are on their way leave none. -/
theorem pending_drained (l : Lifecycles σ₄ σ₆) (p : Pipeline σ₄ σ₆) :
    (p.run l (List.replicate p.pending.length .deliver)).pending = [] := by
  generalize hes : p.pending = es
  induction es generalizing p with
  | nil => exact hes
  | cons e es ih =>
    have hstep : (p.step l .deliver).pending = es := by rw [step, hes]
    exact ih (p.step l .deliver) hstep

/-- A step keeps a pipeline sound if the names in what it reads are distinct. -/
theorem Sound.step (h : p.Sound) (l : Lifecycles σ₄ σ₆) {s : Step}
    (hnames : ∀ next, s.reading? = some next → next.NamesDistinct) : (p.step l s).Sound := by
  cases s with
  | poll answer =>
    cases hr : answer.snapshot with
    | error e => rwa [step_poll_of_error hr]
    | ok next =>
      rw [step_poll_of_ok hr]
      obtain ⟨s, hmirrored, hleads⟩ := h
      have hregular : next.Regular := ⟨Snapshot.placed_of_snapshot hr,
        hnames next (by rw [Step.reading?, hr]; rfl)⟩
      exact ⟨s, hmirrored, hleads.trans (hleads.holds_last.leads_diff hregular)⟩
  | deliver =>
    cases hp : p.pending with
    | nil =>
      have hstep : p.step l .deliver = p := by rw [Pipeline.step, hp]
      rwa [hstep]
    | cons e es => exact (h.deliver hp l).1
  | configure family o =>
    obtain ⟨s, hmirrored, hleads⟩ := h
    refine ⟨s, fun f k => ?_, hleads⟩
    rw [Pipeline.step, Manager.table_configure]
    exact hmirrored f k

/-- A run keeps a pipeline sound if the names in everything that it reads are distinct. -/
theorem Sound.run (h : p.Sound) (l : Lifecycles σ₄ σ₆) {ss : List Step}
    (hnames : ∀ next ∈ ss.filterMap Step.reading?, next.NamesDistinct) : (p.run l ss).Sound := by
  induction ss generalizing p with
  | nil => exact h
  | cons s ss ih =>
    refine ih (h.step l fun next hnext => hnames next ?_) fun next hnext => hnames next ?_
    · exact List.mem_filterMap.2 ⟨s, List.mem_cons_self, hnext⟩
    · obtain ⟨s', hs', hread⟩ := List.mem_filterMap.1 hnext
      exact List.mem_filterMap.2 ⟨s', List.mem_cons_of_mem s hs', hread⟩

/-- A step that reads a snapshot makes it the last one, and any other step keeps the last one. -/
theorem last_step (l : Lifecycles σ₄ σ₆) (p : Pipeline σ₄ σ₆) (s : Step) :
    (p.step l s).feed.last = s.reading?.getD p.feed.last := by
  cases s with
  | poll answer =>
    cases hr : answer.snapshot with
    | error e => rw [step_poll_of_error hr, Step.reading?, hr]; rfl
    | ok next => rw [step_poll_of_ok hr, Step.reading?, hr]; rfl
  | deliver => cases hp : p.pending <;> simp [step, hp, Step.reading?]
  | configure family o => rfl

/-- The feed keeps the last snapshot that was read. -/
theorem last_run (l : Lifecycles σ₄ σ₆) (p : Pipeline σ₄ σ₆) (ss : List Step) :
    (p.run l ss).feed.last = (ss.filterMap Step.reading?).getLastD p.feed.last := by
  induction ss generalizing p with
  | nil => rfl
  | cons s ss ih =>
    rw [run, List.foldl_cons, ← run, ih, last_step]
    cases hr : s.reading? with
    | none => rw [List.filterMap_cons_none hr]; rfl
    | some next => rw [List.filterMap_cons_some hr, List.getLastD_cons]; rfl

/-- If in everything that is read no two interfaces have the same name among the addresses of one
family and kind, then at any time after the beginning: when all events are taken, which they are
once as many are delivered as are on their way, every table holds what the last snapshot says, the
properties of its entries as they are read, and all of them can be read; a reading that fails
changes nothing; and the next event that is taken lands. -/
theorem tables_mirror_listing (l : Lifecycles σ₄ σ₆) (p₄ : σ₄) (p₆ : σ₆) (ss : List Step)
    (hnames : ∀ next ∈ ss.filterMap Step.reading?, next.NamesDistinct) :
    let p := run l { manager := .fresh p₄ p₆ } ss
    p.feed.last = lastReading ss ∧
    (p.pending = [] → ∀ family kind, (p.manager.table family kind).Consistent ∧
      ∀ i, (p.manager.table family kind).get? i =
        (p.feed.last.get? ⟨family, i, kind⟩).bind (Entry.property? i)) ∧
    (p.run l (List.replicate p.pending.length .deliver)).pending = [] ∧
    (∀ key e, p.feed.last.get? key = some e → (e.property? key.index).isSome = true) ∧
    (∀ answer e, answer.snapshot = .error e → p.step l (.poll answer) = p) ∧
    ∀ e es, p.pending = e :: es →
      ∃ c kind, Manager.Lands p.manager (p.step l .deliver).manager e c kind := by
  intro p
  have hsound : p.Sound := (Sound.fresh p₄ p₆).run l hnames
  refine ⟨last_run l _ ss, fun hp family kind => ?_, pending_drained l p, fun key e he => ?_,
    fun answer e h => step_poll_of_error h, fun e es hp => (hsound.deliver hp l).2⟩
  · obtain ⟨s, hmirrored, hleads⟩ := hsound
    rw [hp] at hleads
    cases hleads with
    | done => exact ⟨(hmirrored family kind).consistent, (hmirrored family kind).get?_eq⟩
  · obtain ⟨s, -, hleads⟩ := hsound
    obtain ⟨c, hc, -⟩ := hleads.holds_last.placed key e he
    rw [Entry.property?_eq hc, Option.isSome_some]

end

/-- A listing of one interface with one address, at an index. -/
def listingAt (index : String) : PollAnswer :=
  .exited 0 (Utf8.encode ("[\x7b\"ifindex\":" ++ index ++ ",\"ifname\":\"eth0\",\"addr_info\":[" ++
    "\x7b\"family\":\"inet\",\"local\":\"10.0.0.1\",\"prefixlen\":24\x7d]\x7d]")) []

/-- The snapshot of such a listing. -/
def snapshotAt (index : Int) : Snapshot :=
  SortedTable.insert ∅ ⟨.v4, index, .main⟩ ⟨"eth0", "10.0.0.1/24", false⟩

/-- The name of an interface moves to another index between two readings, with a reading in between
that fails. -/
def movingName : List Step :=
  [.poll (listingAt "2"), .deliver, .poll .absent,
    .configure .v4 (.updateGlobal { enable := true }), .poll (listingAt "3"), .deliver, .deliver]

/-- What the two readings give. -/
theorem reading?_listingAt : (Step.poll (listingAt "2")).reading? = some (snapshotAt 2) ∧
    (Step.poll (listingAt "3")).reading? = some (snapshotAt 3) := by
  constructor <;> decide +kernel

/-- When the name has moved, its old index is free and its new one holds the interface. -/
theorem tables_mirror_movingName :
    let p := run .dryRun { manager := .fresh {} {} } movingName
    (∀ next ∈ movingName.filterMap Step.reading?, next.NamesDistinct) ∧ p.pending = [] ∧
    (p.manager.table .v4 .main).get? 2 = none ∧
    (p.manager.table .v4 .main).get? 3 =
      some ⟨3, "eth0", (V4Address.parse? "10.0.0.1").map .v4, 24, false⟩ := by
  intro p
  obtain ⟨hr2, hr3⟩ := reading?_listingAt
  have h2 := snapshot_eq_of_reading? hr2
  have h3 := snapshot_eq_of_reading? hr3
  have hreadings : movingName.filterMap Step.reading? = [snapshotAt 2, snapshotAt 3] := by
    rw [movingName, List.filterMap_cons_some hr2, List.filterMap_cons_none rfl,
      List.filterMap_cons_none rfl, List.filterMap_cons_none rfl, List.filterMap_cons_some hr3,
      List.filterMap_cons_none rfl, List.filterMap_cons_none rfl, List.filterMap_nil]
  have hnames : ∀ next ∈ movingName.filterMap Step.reading?, next.NamesDistinct := by
    rw [hreadings]
    decide
  have hpending : p.pending = [] := by
    simp only [p, run, movingName, List.foldl_cons, List.foldl_nil, step_poll_of_ok h2,
      step_poll_of_ok h3, step_poll_of_error (show PollAnswer.absent.snapshot = _ from rfl)]
    decide
  obtain ⟨hlast, htable, -⟩ := tables_mirror_listing .dryRun {} {} movingName hnames
  have hget := (htable hpending .v4 .main).2
  rw [hlast, lastReading, hreadings] at hget
  exact ⟨hnames, hpending, (hget 2).trans (by decide), (hget 3).trans (by decide)⟩

end Pipeline

end DhcpRelay.Watch
