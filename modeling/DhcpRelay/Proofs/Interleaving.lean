import Mathlib.Data.List.Basic

/-!
# Interleavings

Two sequences of steps can be carried out alternately in many ways, each of which keeps the order
inside both (`Interleaving`). Where every step of one commutes with every step of the other, all of
these ways end in the same state, that of the one sequence after the other
(`Interleaving.foldl_eq`). It is enough that they commute in the states that can occur.
-/

namespace DhcpRelay

/-- The third list alternates between the first two and keeps the order of both. -/
inductive Interleaving {α : Type} : List α → List α → List α → Prop where
  | nil : Interleaving [] [] []
  | left {a : α} {as bs cs : List α} (h : Interleaving as bs cs) :
    Interleaving (a :: as) bs (a :: cs)
  | right {b : α} {as bs cs : List α} (h : Interleaving as bs cs) :
    Interleaving as (b :: bs) (b :: cs)

namespace Interleaving

variable {α β σ : Type} {as bs cs as' bs' cs' : List α}

/-- One list may come wholly before the other. -/
theorem append (as bs : List α) : Interleaving as bs (as ++ bs) := by
  induction as with
  | nil =>
    induction bs with
    | nil => exact .nil
    | cons b bs ih => exact ih.right
  | cons a as ih => exact ih.left

/-- Neither list comes first. -/
theorem symm (h : Interleaving as bs cs) : Interleaving bs as cs := by
  induction h with
  | nil => exact .nil
  | left _ ih => exact ih.right
  | right _ ih => exact ih.left

/-- Interleavings follow one another. -/
theorem concat (h : Interleaving as bs cs) (h' : Interleaving as' bs' cs') :
    Interleaving (as ++ as') (bs ++ bs') (cs ++ cs') := by
  induction h with
  | nil => exact h'
  | left _ ih => exact ih.left
  | right _ ih => exact ih.right

/-- If every member stands for a list, the lists are interleaved like the members. -/
theorem flatMap (h : Interleaving as bs cs) (f : α → List β) :
    Interleaving (as.flatMap f) (bs.flatMap f) (cs.flatMap f) := by
  induction h with
  | nil => exact .nil
  | @left a as bs cs _ ih =>
    exact (append [] (f a)).symm.concat ih
  | @right b as bs cs _ ih => exact (append [] (f b)).concat ih

section
variable {step : σ → α → σ} {Good : σ → Prop} {s : σ}

/-- A step that commutes with each of a sequence may come after it as well as before it. -/
theorem foldl_step {b : α} (hgood : ∀ s x, Good s → Good (step s x))
    (hcomm : ∀ s, Good s → ∀ a ∈ as, step (step s a) b = step (step s b) a) (hs : Good s) :
    as.foldl step (step s b) = step (as.foldl step s) b := by
  induction as generalizing s with
  | nil => rfl
  | cons a as ih =>
    rw [List.foldl_cons, ← hcomm s hs a List.mem_cons_self]
    exact ih (fun s hs x hx => hcomm s hs x (List.mem_cons_of_mem a hx)) (hgood s a hs)

/-- Sequences whose steps commute with one another may be interleaved in any way: the state is that
of the one after the other. -/
theorem foldl_eq (h : Interleaving as bs cs) (hgood : ∀ s x, Good s → Good (step s x))
    (hcomm : ∀ s, Good s → ∀ a ∈ as, ∀ b ∈ bs, step (step s a) b = step (step s b) a)
    (hs : Good s) : cs.foldl step s = (as ++ bs).foldl step s := by
  induction h generalizing s with
  | nil => rfl
  | @left a as bs cs _ ih =>
    exact ih (fun s hs x hx => hcomm s hs x (List.mem_cons_of_mem a hx)) (hgood s a hs)
  | @right b as bs cs _ ih =>
    calc cs.foldl step (step s b)
      _ = (as ++ bs).foldl step (step s b) :=
        ih (fun s hs a ha y hy => hcomm s hs a ha y (List.mem_cons_of_mem b hy)) (hgood s b hs)
      _ = bs.foldl step (step (as.foldl step s) b) := by
        rw [List.foldl_append, foldl_step hgood
          (fun s hs a ha => hcomm s hs a ha b List.mem_cons_self) hs]
      _ = (as ++ b :: bs).foldl step s := by rw [List.foldl_append, List.foldl_cons]

end

end Interleaving

end DhcpRelay
