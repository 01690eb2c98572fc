import DhcpRelay.Proofs.Address.Blocks
import DhcpRelay.Proofs.Manager.Reload

/-!
# What is accepted

The rules for a record are stated without a word on how they are checked: `GlobalConfig.Valid` for a
global record, `Family.Allows` for what an interface record lists, and `Tracker.Admits` for what is
asked of it at a given moment. The checks look for offences in a fixed order, the servers in theirs
before the upstream interfaces in theirs, and `Tracker.offences` lists all there are. A check
answers with the first one (`Tracker.rejection?_eq`), and there is none exactly if the rules are met
(`Tracker.offences_eq_nil_iff`).

So an operation of the manager accepts a record exactly if the rules are met, a rejection is the
first offence, and it leaves the manager as it was (`Manager.validation_exact`). Since nothing is
stored unchecked, what is stored in a manager that is changed by its operations alone has met the
rules that do not depend on the moment (`Manager.validated_run`).
-/

namespace DhcpRelay

open Interface (Event)

/-! ## Rejections -/

section
variable {x : Except Rejection Unit}

/-- What is not rejected is accepted. -/
theorem rejectionOf?_eq_none_iff : rejectionOf? x = none ↔ x = .ok () := by
  cases x <;> simp [rejectionOf?]

/-- What is rejected of two checks one after the other is what the first rejects, or else the
second. -/
theorem rejectionOf?_bind (x : Except Rejection Unit) (f : Unit → Except Rejection Unit) :
    rejectionOf? (x >>= f) = (rejectionOf? x).or (rejectionOf? (f ())) := by
  cases x <;> rfl

end

/-! ## Global records -/

namespace GlobalConfig

/-- The rules for a global record. -/
structure Valid (c : GlobalConfig) : Prop where
  vrf : c.vrf = "default"
  one_le_limit : 1 ≤ c.hopCountLimit.toNat
  limit_le : c.hopCountLimit.toNat ≤ 32

/-- What breaks the rules in a global record, in the order in which it is looked for. -/
def offences (c : GlobalConfig) : List Rejection :=
  (if c.vrf = "default" then [] else [.foreignVrf c.vrf]) ++
    if 1 ≤ c.hopCountLimit.toNat ∧ c.hopCountLimit.toNat ≤ 32 then []
    else [.hopCountLimit c.hopCountLimit]

variable {c : GlobalConfig}

/-- Nothing breaks the rules exactly if they are met. -/
theorem offences_eq_nil_iff : c.offences = [] ↔ c.Valid := by
  simp only [offences, List.append_eq_nil_iff, ite_eq_left_iff, List.cons_ne_nil, imp_false,
    not_not]
  constructor
  · rintro ⟨hvrf, hpos, hle⟩
    exact ⟨hvrf, hpos, hle⟩
  · rintro ⟨hvrf, hpos, hle⟩
    exact ⟨hvrf, hpos, hle⟩

/-- A global record is rejected for the first thing that breaks the rules. -/
theorem rejection?_eq (c : GlobalConfig) : c.rejection? = c.offences.head? := by
  have hlimit : (c.hopCountLimit = 0 ∨ maxHopCount < c.hopCountLimit) ↔
      ¬ (1 ≤ c.hopCountLimit.toNat ∧ c.hopCountLimit.toNat ≤ 32) := by
    rw [← UInt8.toNat_inj, UInt8.lt_iff_toNat_lt]
    have hzero : (0 : UInt8).toNat = 0 := rfl
    have hmax : maxHopCount.toNat = 32 := rfl
    omega
  unfold rejection? validate offences
  simp only [hlimit, defaultVrf]
  split <;> split <;> simp_all [rejectionOf?]

end GlobalConfig

/-! ## Servers -/

namespace Family

/-- The rule for the text of a server's address: it is an address of the family, and for IPv6 one
that is neither IPv4-mapped nor in fe80::/10. -/
def AllowsServer : Family → String → Prop
  | .v4, text => ∃ a, V4Address.parse? text = some a
  | .v6, text => ∃ a, V6Address.parse? text = some a ∧ ¬ a.InBlock V6Address.mappedBase 96 ∧
      ¬ a.InBlock V6Address.linkLocalBase 10

/-- The check of a server's address is that of the rule. -/
theorem acceptsServer_iff {family : Family} {text : String} :
    family.acceptsServer text = true ↔ family.AllowsServer text := by
  cases family with
  | v4 => exact Option.isSome_iff_exists
  | v6 =>
    simp only [acceptsServer, AllowsServer, Option.any_eq_true, Bool.and_eq_true,
      Option.isNone_iff_eq_none, Bool.not_eq_true', ← V6Address.isLinkLocal_iff,
      ← V6Address.isSome_mappedV4?_iff, Bool.not_eq_true, Option.isSome_eq_false_iff]

instance (family : Family) (text : String) : Decidable (family.AllowsServer text) :=
  decidable_of_iff _ acceptsServer_iff

/-- The servers that break the rule, in list order. -/
def serverOffences (family : Family) (servers : List String) : List Rejection :=
  (servers.filter fun text => ¬ family.AllowsServer text).map (.badServer family)

/-- Servers are rejected for the first one that breaks the rule. -/
theorem rejectionOf?_validateServers (family : Family) (servers : List String) :
    rejectionOf? (family.validateServers servers) = (family.serverOffences servers).head? := by
  induction servers with
  | nil => rfl
  | cons text rest ih =>
    rw [validateServers, rejectionOf?_bind, ih, validateServer, serverOffences, serverOffences]
    by_cases h : family.AllowsServer text
    · rw [if_pos (acceptsServer_iff.2 h), List.filter_cons_of_neg (by simpa using h)]
      rfl
    · rw [if_neg (mt acceptsServer_iff.1 h), List.filter_cons_of_pos (by simpa using h)]
      rfl

/-- The rules for an interface record that do not depend on the moment. -/
structure Allows (family : Family) (c : InterfaceConfig) : Prop where
  servers : ∀ text ∈ c.servers, family.AllowsServer text
  upstreams_nodup : family = .v6 → c.upstreams.Nodup

end Family

/-! ## Upstream interfaces -/

namespace Tracker

/-- What breaks the rules in an upstream interface that stands behind others. -/
def upstreamOffencesAt (t : Tracker) (before : List String) (name : String) : List Rejection :=
  (if name ∈ before then [.repeatedUpstream name] else []) ++
    if (t.linkLocal.find? name).isSome then [] else [.unknownUpstream name]

/-- What breaks the rules in upstream interfaces, in list order. -/
def upstreamOffences (t : Tracker) (names : List String) : List Rejection :=
  names.zipIdx.flatMap fun (name, i) => t.upstreamOffencesAt (names.take i) name

/-- What breaks the rules in upstream interfaces of which some have been looked at. -/
def upstreamOffencesAfter (t : Tracker) (seen names : List String) : List Rejection :=
  (names.zipIdx seen.length).flatMap fun (name, i) =>
    t.upstreamOffencesAt ((seen ++ names).take i) name

section
variable {t : Tracker} {seen : List String}

/-- Of the upstream interfaces that are left the first one is looked at next. -/
theorem upstreamOffencesAfter_cons (t : Tracker) (seen : List String) (name : String)
    (names : List String) : t.upstreamOffencesAfter seen (name :: names) =
      t.upstreamOffencesAt seen name ++ t.upstreamOffencesAfter (seen ++ [name]) names := by
  simp [upstreamOffencesAfter, List.zipIdx_cons]

/-- Upstream interfaces are rejected for the first thing that breaks the rules. -/
theorem rejectionOf?_validateUpstreamsAfter {known : List String}
    (hknown : ∀ name, name ∈ known ↔ name ∈ seen) (names : List String) :
    rejectionOf? (t.validateUpstreamsAfter known names) =
      (t.upstreamOffencesAfter seen names).head? := by
  induction names generalizing seen known with
  | nil => rfl
  | cons name names ih =>
    rw [validateUpstreamsAfter, upstreamOffencesAfter_cons, upstreamOffencesAt]
    by_cases hseen : name ∈ seen
    · rw [if_pos ((hknown name).2 hseen), if_pos hseen]
      rfl
    · rw [if_neg (mt (hknown name).1 hseen), if_neg hseen]
      cases hfind : t.linkLocal.find? name with
      | none => rfl
      | some p =>
        have hnext : ∀ other, other ∈ name :: known ↔ other ∈ seen ++ [name] := fun other => by
          rw [List.mem_cons, hknown, List.mem_append, List.mem_singleton, or_comm]
        simpa using ih hnext

/-- Nothing breaks the rules exactly if each of the names that are left is new and has a link-local
address. -/
theorem upstreamOffencesAfter_eq_nil_iff {names : List String} :
    t.upstreamOffencesAfter seen names = [] ↔ (∀ name ∈ names, name ∉ seen) ∧ names.Nodup ∧
      ∀ name ∈ names, (t.linkLocal.find? name).isSome := by
  induction names generalizing seen with
  | nil => simp [upstreamOffencesAfter]
  | cons name names ih =>
    rw [upstreamOffencesAfter_cons, List.append_eq_nil_iff, ih]
    simp only [upstreamOffencesAt, List.append_eq_nil_iff, ite_eq_left_iff, ite_eq_right_iff,
      List.cons_ne_nil, imp_false, not_not, List.mem_append, List.mem_singleton, not_or,
      List.forall_mem_cons, List.nodup_cons]
    constructor
    · rintro ⟨⟨hseen, hfind⟩, hnew, hnodup, hall⟩
      exact ⟨⟨hseen, fun other ho => (hnew other ho).1⟩,
        ⟨fun hm => (hnew name hm).2 rfl, hnodup⟩, hfind, hall⟩
    · rintro ⟨⟨hseen, hnew⟩, ⟨hname, hnodup⟩, hfind, hall⟩
      refine ⟨⟨hseen, hfind⟩, fun other ho => ⟨hnew other ho, ?_⟩, hnodup, hall⟩
      rintro rfl
      exact hname ho

end

/-! ## Interface records -/

/-- The rules for an interface record at a given moment: for IPv6 its upstream interfaces have
link-local addresses besides. -/
structure Admits (t : Tracker) (family : Family) (c : InterfaceConfig) : Prop
    extends family.Allows c where
  upstreams_known : family = .v6 → ∀ name ∈ c.upstreams, (t.linkLocal.find? name).isSome

/-- What breaks the rules in an interface record: its servers, then for IPv6 its upstream
interfaces. -/
def offences (t : Tracker) (family : Family) (c : InterfaceConfig) : List Rejection :=
  family.serverOffences c.servers ++
    match family with
    | .v4 => []
    | .v6 => t.upstreamOffences c.upstreams

/-- What breaks the rules in the record of an interface that has to exist: first that it does
not. -/
def creationOffences (t : Tracker) (family : Family) (c : InterfaceConfig) : List Rejection :=
  (if (t.props.index? c.name).isSome then [] else [.unknownInterface family c.name]) ++
    t.offences family c

section
variable {t : Tracker} {family : Family} {c : InterfaceConfig}

/-- Nothing breaks the rules exactly if they are met. -/
theorem offences_eq_nil_iff : t.offences family c = [] ↔ t.Admits family c := by
  have hservers : family.serverOffences c.servers = [] ↔
      ∀ text ∈ c.servers, family.AllowsServer text := by
    simp [Family.serverOffences]
  unfold offences
  rw [List.append_eq_nil_iff, hservers]
  cases family with
  | v4 =>
    constructor
    · rintro ⟨hs, -⟩
      exact ⟨⟨hs, nofun⟩, nofun⟩
    · rintro ⟨⟨hs, -⟩, -⟩
      exact ⟨hs, rfl⟩
  | v6 =>
    have hupstreams : t.upstreamOffencesAfter [] c.upstreams = [] ↔ _ :=
      upstreamOffencesAfter_eq_nil_iff
    constructor
    · rintro ⟨hs, hu⟩
      obtain ⟨-, hnodup, hall⟩ := hupstreams.1 hu
      exact ⟨⟨hs, fun _ => hnodup⟩, fun _ => hall⟩
    · rintro ⟨⟨hs, hnodup⟩, hall⟩
      exact ⟨hs, hupstreams.2 ⟨fun _ _ => List.not_mem_nil, hnodup rfl, hall rfl⟩⟩

/-- Nothing breaks the rules in the record of an interface that has to exist exactly if it exists
and the rules are met. -/
theorem creationOffences_eq_nil_iff : t.creationOffences family c = [] ↔
    (t.props.index? c.name).isSome ∧ t.Admits family c := by
  rw [creationOffences, List.append_eq_nil_iff, offences_eq_nil_iff]
  simp [Option.isSome_iff_ne_none]

/-- An interface record is rejected for the first thing that breaks the rules. -/
theorem rejection?_eq (t : Tracker) (family : Family) (c : InterfaceConfig) :
    t.rejection? family c = (t.offences family c).head? := by
  unfold rejection? validateInterface offences
  rw [rejectionOf?_bind, Family.rejectionOf?_validateServers, List.head?_append]
  cases family with
  | v4 => rfl
  | v6 =>
    have hupstreams : rejectionOf? (t.validateUpstreams c.upstreams) =
        (t.upstreamOffencesAfter [] c.upstreams).head? :=
      rejectionOf?_validateUpstreamsAfter (fun _ => Iff.rfl) c.upstreams
    exact congrArg _ hupstreams

/-! ## What is stored -/

/-- What is stored meets the rules that do not depend on the moment. -/
structure Validated (family : Family) (t : Tracker) : Prop where
  global : ∀ c, t.global = some c → c.Valid
  records : ∀ name c, t.configs.get? name = some c → family.Allows c

/-- What is stored in two trackers with the same records is the same. -/
theorem Validated.congr {u : Tracker} (h : t.Validated family) (hglobal : u.global = t.global)
    (hconfigs : u.configs = t.configs) : u.Validated family := by
  constructor
  · rw [hglobal]
    exact h.global
  · rw [hconfigs]
    exact h.records

/-- A global record that is stored unless it is rejected has met the rules. -/
theorem Validated.setGlobal (h : t.Validated family) {c : GlobalConfig} (hc : c.rejection? = none) :
    (t.setGlobal c).Validated family := by
  rw [c.rejection?_eq, List.head?_eq_none_iff, GlobalConfig.offences_eq_nil_iff] at hc
  constructor
  · rintro c' hc'
    rw [global_setGlobal] at hc'
    obtain rfl := Option.some.inj hc'
    exact hc
  · rw [configs_setGlobal]
    exact h.records

/-- An interface record that is stored unless it is rejected has met the rules. -/
theorem Validated.setInterface (h : t.Validated family) (hc : t.rejection? family c = none) :
    (t.setInterface c).Validated family := by
  rw [t.rejection?_eq, List.head?_eq_none_iff, offences_eq_nil_iff] at hc
  constructor
  · rw [global_setInterface]
    exact h.global
  · intro name c' hc'
    rw [configs_setInterface, SortedTable.get?_insert_eq] at hc'
    split at hc'
    · obtain rfl := Option.some.inj hc'
      exact hc.toAllows
    · exact h.records name c' hc'

/-- Removing a record takes nothing from the others. -/
theorem Validated.removeInterface (h : t.Validated family) (name : String) :
    (t.removeInterface name).Validated family := by
  constructor
  · rw [global_removeInterface]
    exact h.global
  · intro other c hc
    rw [configs_removeInterface, SortedTable.get?_erase_eq] at hc
    split at hc
    · cases hc
    · exact h.records other c hc

end

end Tracker

namespace Agent

section
variable {σ : Type} {l : Lifecycle σ} {family : Family} {a : Agent σ}

/-- An update stores no interface record that breaks the rules. -/
theorem validated_updateInterface (h : a.tracker.Validated family) (c : InterfaceConfig) :
    (a.updateInterface l family c).2.tracker.Validated family := by
  rw [tracker_updateInterface]
  cases hc : a.tracker.rejection? family c with
  | some e => exact h
  | none => exact h.setInterface hc

/-- No elementary operation stores what breaks the rules. -/
theorem validated_apply (l : Lifecycle σ) (family : Family) (a : Agent σ) (o : Operation)
    (h : a.tracker.Validated family) : (a.apply l family o).tracker.Validated family := by
  cases o with
  | updateGlobal c =>
    show (a.updateGlobal l c).2.tracker.Validated family
    rw [tracker_updateGlobal]
    cases hc : c.rejection? with
    | some e => exact h
    | none => exact h.setGlobal hc
  | deleteGlobal =>
    show (a.deleteGlobal l).tracker.Validated family
    rw [deleteGlobal, tracker_reconcile]
    refine ⟨fun c hc => ?_, h.records⟩
    cases hc
  | createInterface c =>
    show (a.createInterface l family c).2.tracker.Validated family
    unfold createInterface
    split
    · exact h
    · exact validated_updateInterface h c
  | updateInterface c => exact validated_updateInterface h c
  | deleteInterface name =>
    show (a.deleteInterface l name).tracker.Validated family
    rw [tracker_deleteInterface]
    exact h.removeInterface name
  | notify e =>
    show (a.notify l e).tracker.Validated family
    rw [tracker_notify]
    split
    · exact h
    · exact h.congr (global_eventChange ..) (configs_eventChange ..)

end

end Agent

/-! ## Operations of the manager -/

namespace Manager

/-- What the manager answers to a record that is offered to it, and leaves, is decided by what
breaks the rules: the record is accepted exactly if they are met, and is otherwise rejected for the
first offence, in which case nothing has changed. -/
structure Decided {σ₄ σ₆ : Type} (m : Manager σ₄ σ₆) (rules : Prop) (offences : List Rejection)
    (r : Except Rejection Unit × Manager σ₄ σ₆) : Prop where
  accepted_iff : r.1 = .ok () ↔ rules
  first_offence : ∀ e, r.1 = .error e → offences.head? = some e
  unchanged : ∀ e, r.1 = .error e → r.2 = m

section
variable {σ₄ σ₆ : Type} {l : Lifecycles σ₄ σ₆} {m : Manager σ₄ σ₆} {family : Family}
  {rules : Prop} {offences : List Rejection}

/-- An operation of an agent that answers with the first offence, and then has changed nothing,
makes one of the manager that is decided by the offences. -/
theorem decided_onAgent {f : ∀ {σ : Type}, Lifecycle σ → Agent σ → Except Rejection Unit × Agent σ}
    (hrules : offences = [] ↔ rules)
    (hfirst : ∀ {σ : Type} (l : Lifecycle σ) (a : Agent σ), a.tracker = m.tracker family →
      rejectionOf? (f l a).1 = offences.head?)
    (hsame : ∀ {σ : Type} (l : Lifecycle σ) (a : Agent σ) e, (f l a).1 = .error e →
      (f l a).2 = a) :
    m.Decided rules offences (m.onAgent l family f) := by
  have hanswer : rejectionOf? (m.onAgent l family f).1 = offences.head? := by
    cases family with
    | v4 => exact hfirst l.v4 m.v4 rfl
    | v6 => exact hfirst l.v6 m.v6 rfl
  refine ⟨?_, fun e he => ?_, fun e he => ?_⟩
  · rw [← rejectionOf?_eq_none_iff, hanswer, List.head?_eq_none_iff, hrules]
  · rw [← hanswer, he]
    rfl
  · cases family with
    | v4 =>
      have hagent := hsame l.v4 m.v4 e he
      simp only [onAgent, hagent]
    | v6 =>
      have hagent := hsame l.v6 m.v6 e he
      simp only [onAgent, hagent]

/-- What offers a global record is decided by what breaks the rules in it. -/
theorem decided_updateGlobal (l : Lifecycles σ₄ σ₆) (m : Manager σ₄ σ₆) (family : Family)
    (c : GlobalConfig) : m.Decided c.Valid c.offences (m.updateGlobal l family c) := by
  refine decided_onAgent GlobalConfig.offences_eq_nil_iff (fun l a _ => ?_) fun l a e he => ?_
  · rw [Agent.answer_updateGlobal]
    exact c.rejection?_eq
  · rw [Agent.answer_updateGlobal] at he
    simp only [Agent.updateGlobal, he]

/-- What offers an interface record is decided by what breaks the rules in it. -/
theorem decided_updateInterface (l : Lifecycles σ₄ σ₆) (m : Manager σ₄ σ₆) (family : Family)
    (c : InterfaceConfig) : m.Decided ((m.tracker family).Admits family c)
      ((m.tracker family).offences family c) (m.updateInterface l family c) := by
  refine decided_onAgent Tracker.offences_eq_nil_iff (fun l a ha => ?_) fun l a e he => ?_
  · rw [Agent.answer_updateInterface, ← ha]
    exact a.tracker.rejection?_eq family c
  · rw [Agent.answer_updateInterface] at he
    rw [Agent.updateInterface_of_error he]

/-- What offers the record of an interface that has to exist is decided by whether it exists, and by
what breaks the rules in the record. -/
theorem decided_createInterface (l : Lifecycles σ₄ σ₆) (m : Manager σ₄ σ₆) (family : Family)
    (c : InterfaceConfig) :
    m.Decided (((m.tracker family).props.index? c.name).isSome ∧ (m.tracker family).Admits family c)
      ((m.tracker family).creationOffences family c) (m.createInterface l family c) := by
  refine decided_onAgent Tracker.creationOffences_eq_nil_iff (fun l a ha => ?_) fun l a e he => ?_
  · rw [Agent.createInterface, Tracker.creationOffences, ← ha, List.head?_append,
      ← Tracker.rejection?_eq]
    cases a.tracker.props.index? c.name with
    | none => rfl
    | some i => exact congrArg rejectionOf? (Agent.answer_updateInterface l family a c)
  · unfold Agent.createInterface at he ⊢
    split at he
    · next hunknown => rw [if_pos hunknown]
    · next hknown =>
      rw [Agent.answer_updateInterface] at he
      rw [if_neg hknown, Agent.updateInterface_of_error he]

/-- Whatever a manager does from the beginning, what it stores meets the rules. -/
theorem validated_run (l : Lifecycles σ₄ σ₆) (p₄ : σ₄) (p₆ : σ₆) (os : List Operation)
    (family : Family) : (((fresh p₄ p₆).run l os).tracker family).Validated family := by
  refine tracker_run_of_step Agent.validated_apply (fun family => ?_) os family
  cases family <;> exact ⟨nofun, nofun⟩

end

/-- The manager accepts a global record exactly if it meets the rules, an interface record exactly
if it meets the rules at that moment, and the record of an interface that has to exist exactly if
the interface does so moreover. A rejection is the first offence in the order of the checks and
leaves both families as they were. So what a manager has stored after any operations meets the
rules. -/
theorem validation_exact {σ₄ σ₆ : Type} (l : Lifecycles σ₄ σ₆) :
    (∀ (m : Manager σ₄ σ₆) (family : Family),
      (∀ c : GlobalConfig, m.Decided c.Valid c.offences (m.updateGlobal l family c)) ∧
        ∀ c : InterfaceConfig,
          m.Decided ((m.tracker family).Admits family c) ((m.tracker family).offences family c)
            (m.updateInterface l family c) ∧
          m.Decided
            (((m.tracker family).props.index? c.name).isSome ∧ (m.tracker family).Admits family c)
            ((m.tracker family).creationOffences family c) (m.createInterface l family c)) ∧
      ∀ (p₄ : σ₄) (p₆ : σ₆) (os : List Operation) (family : Family),
        (((fresh p₄ p₆).run l os).tracker family).Validated family := by
  refine ⟨fun m family => ⟨fun c => ?_, fun c => ⟨?_, ?_⟩⟩, fun p₄ p₆ os family => ?_⟩
  · exact decided_updateGlobal l m family c
  · exact decided_updateInterface l m family c
  · exact decided_createInterface l m family c
  · exact validated_run l p₄ p₆ os family

/-- A record of which the second server is IPv4-mapped, and whose upstream interface is unknown and
stands twice. -/
def mappedServerRecord : InterfaceConfig where
  name := "eth0"
  enable := true
  servers := ["2001:db8::2", "::ffff:10.0.0.2"]
  upstreams := ["eth9", "eth9"]

/-- It is rejected for the server, which is the first of four offences, and nothing has changed. -/
theorem mappedServerRecord_rejected :
    let m : Manager Recorder Recorder := fresh {} {}
    let r := m.updateInterface .dryRun .v6 mappedServerRecord
    r.1 = .error (.badServer .v6 "::ffff:10.0.0.2") ∧
      (m.tracker .v6).offences .v6 mappedServerRecord =
        [.badServer .v6 "::ffff:10.0.0.2", .unknownUpstream "eth9", .repeatedUpstream "eth9",
          .unknownUpstream "eth9"] ∧
      ¬ (m.tracker .v6).Admits .v6 mappedServerRecord ∧ r.2 = m := by
  intro m r
  have hdecided := (((validation_exact .dryRun).1 m .v6).2 mappedServerRecord).1
  have hanswer : r.1 = .error (.badServer .v6 "::ffff:10.0.0.2") := by decide +kernel
  refine ⟨hanswer, by decide +kernel, fun hadmits => ?_, hdecided.unchanged _ hanswer⟩
  cases hanswer.symm.trans (hdecided.accepted_iff.2 hadmits)

end Manager

end DhcpRelay
