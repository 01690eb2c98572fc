import Mathlib.Data.List.Basic

/-!
# What has lasted in a history

A history is the list of the states that a system went through, or of what it took in, the first one
first. Something has lasted in it if it began in one of the states and has held in every state after
that one, and something is the latest if nothing after it takes its place. The last state then
decides from one step to the next whether it still does. What the steps count adds up to a tally.
-/

namespace DhcpRelay

namespace History

variable {α : Type} {begins holds : α → Prop} {before : List α} {a b : α}

/-- It began in some state that is not the last, and has held ever since. -/
def Lasts (begins holds : α → Prop) (states : List α) : Prop :=
  ∃ pre a b post, states = pre ++ a :: b :: post ∧ begins a ∧ ∀ c ∈ b :: post, holds c

/-- Nothing has lasted before the first step. -/
theorem not_lasts_singleton (a : α) : ¬ Lasts begins holds [a] := by
  rintro ⟨pre, x, y, post, he, -⟩
  have hlength := congrArg List.length he
  simp only [List.length_append, List.length_cons, List.length_nil] at hlength
  omega

/-- After a step something has lasted if it holds and had lasted before, or began just before the
step. -/
theorem lasts_append : Lasts begins holds (before ++ [a] ++ [b]) ↔
    holds b ∧ (Lasts begins holds (before ++ [a]) ∨ begins a) := by
  constructor
  · rintro ⟨pre, x, y, post, he, hx, hpost⟩
    rcases List.eq_nil_or_concat post with rfl | ⟨post, z, rfl⟩
    · have he' : before ++ [a] ++ [b] = (pre ++ [x]) ++ [y] := by simpa using he
      obtain ⟨hxy, hb⟩ := List.append_inj' he' rfl
      obtain ⟨-, ha⟩ := List.append_inj' hxy rfl
      obtain rfl := List.singleton_inj.1 hb
      obtain rfl := List.singleton_inj.1 ha
      exact ⟨hpost b List.mem_cons_self, .inr hx⟩
    · have he' : before ++ [a] ++ [b] = (pre ++ x :: y :: post) ++ [z] := by simpa using he
      obtain ⟨hstates, hb⟩ := List.append_inj' he' rfl
      obtain rfl := List.singleton_inj.1 hb
      rw [List.concat_eq_append, ← List.cons_append] at hpost
      exact ⟨hpost b (by simp), .inl ⟨pre, x, y, post, hstates, hx, fun c hc =>
        hpost c (List.mem_append_left _ hc)⟩⟩
  · rintro ⟨hb, ⟨pre, x, y, post, he, hx, hpost⟩ | ha⟩
    · refine ⟨pre, x, y, post ++ [b], by rw [he]; simp, hx, fun c hc => ?_⟩
      rw [← List.cons_append] at hc
      rcases List.mem_append.1 hc with hc | hc
      · exact hpost c hc
      · exact List.mem_singleton.1 hc ▸ hb
    · exact ⟨before, a, b, [], by simp, ha, fun c hc => List.mem_singleton.1 hc ▸ hb⟩

/-- What has lasted holds in the last state. -/
theorem Lasts.holds_last (h : Lasts begins holds (before ++ [a])) : holds a := by
  rcases List.eq_nil_or_concat before with rfl | ⟨before, x, rfl⟩
  · exact absurd h (not_lasts_singleton a)
  · rw [List.concat_eq_append] at h
    exact (lasts_append.1 h).1

/-- The steps of a history that begins with `first`: each state with the one that follows it. -/
def steps (first : α) (later : List α) : List (α × α) := (first :: later).zip later

theorem steps_cons (a b : α) (later : List α) : steps a (b :: later) = (a, b) :: steps b later :=
  rfl

/-- The steps of a history that goes on are followed by those from its last state on. -/
theorem steps_append (a : α) (bs cs : List α) :
    steps a (bs ++ cs) = steps a bs ++ steps (bs.getLastD a) cs := by
  induction bs generalizing a with
  | nil => rfl
  | cons b bs ih => rw [List.cons_append, steps_cons, ih, steps_cons, List.getLastD_cons,
      List.cons_append]

variable {wanted replaces : α → Prop}

/-- Something that is wanted is in the history, and nothing after it takes its place. -/
def Latest (wanted replaces : α → Prop) (states : List α) : Prop :=
  ∃ pre a post, states = pre ++ a :: post ∧ wanted a ∧ ∀ b ∈ post, ¬ replaces b

/-- In an empty history nothing is the latest. -/
theorem not_latest_nil : ¬ Latest wanted replaces [] := by
  rintro ⟨pre, a, post, he, -⟩
  exact absurd he.symm (List.append_ne_nil_of_right_ne_nil pre (List.cons_ne_nil a post))

/-- After a step the latest is what came last, or what it was before if nothing took its place. -/
theorem latest_append : Latest wanted replaces (before ++ [a]) ↔
    wanted a ∨ ¬ replaces a ∧ Latest wanted replaces before := by
  constructor
  · rintro ⟨pre, x, post, he, hx, hpost⟩
    rcases List.eq_nil_or_concat post with rfl | ⟨post, z, rfl⟩
    · obtain ⟨-, ha⟩ := List.append_inj' he rfl
      obtain rfl := List.singleton_inj.1 ha
      exact .inl hx
    · have he' : before ++ [a] = (pre ++ x :: post) ++ [z] := by simpa using he
      obtain ⟨hbefore, ha⟩ := List.append_inj' he' rfl
      obtain rfl := List.singleton_inj.1 ha
      exact .inr ⟨hpost a (by simp), pre, x, post, hbefore, hx,
        fun b hb => hpost b (by simp [hb])⟩
  · rintro (ha | ⟨ha, pre, x, post, he, hx, hpost⟩)
    · exact ⟨before, a, [], rfl, ha, nofun⟩
    · refine ⟨pre, x, post ++ [a], by rw [he]; simp, hx, fun b hb => ?_⟩
      obtain hb | hb := List.mem_append.1 hb
      · exact hpost b hb
      · exact List.mem_singleton.1 hb ▸ ha

variable {σ ι : Type} {take : σ → ι → σ} {count : σ → ι → Nat}

/-- The sum of what each input counts in the state in which it comes in. -/
def tally (take : σ → ι → σ) (count : σ → ι → Nat) : σ → List ι → Nat
  | _, [] => 0
  | s, i :: ins => count s i + tally take count (take s i) ins

/-- One input more adds what it counts in the state that the others lead to. -/
theorem tally_append_singleton (s : σ) (ins : List ι) (i : ι) :
    tally take count s (ins ++ [i]) = tally take count s ins + count (ins.foldl take s) i := by
  induction ins generalizing s with
  | nil => simp [tally]
  | cons j ins ih =>
    rw [List.cons_append, tally, ih, tally, List.foldl_cons, Nat.add_assoc]

/-- Inputs of which none counts anything count nothing. -/
theorem tally_eq_zero (h : ∀ s i, count s i = 0) (s : σ) (ins : List ι) :
    tally take count s ins = 0 := by
  induction ins generalizing s with
  | nil => rfl
  | cons i ins ih => rw [tally, h, ih]

end History

end DhcpRelay
