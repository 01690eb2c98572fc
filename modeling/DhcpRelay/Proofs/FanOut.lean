import DhcpRelay.Proofs.Counters

/-!
# Sending one message to several servers

Both relays send a message on to a list of servers, pass over what is no address, and try each of
the others once (`forall₂_mapIdx_filterMap`). What is counted of it is the arrival of the message
and each success, or a drop if there is none (`Counters.Entry.sending`).
-/

namespace DhcpRelay

/-- Of what leads somewhere there is one thing made for each, in their order. -/
theorem forall₂_mapIdx_filterMap {α β δ γ : Type} {R : α → γ → Prop} {o : α → Option β}
    {g : α → β → δ} {f : Nat → δ → γ} (h : ∀ n x y, o x = some y → R x (f n (g x y)))
    (xs : List α) : List.Forall₂ R (xs.filter fun x => (o x).isSome)
      ((xs.filterMap fun x => (o x).map (g x)).mapIdx f) := by
  induction xs generalizing f with
  | nil => exact .nil
  | cons x xs ih =>
    cases hx : o x with
    | none =>
      rw [List.filterMap_cons_none (by simp [hx]), List.filter_cons_of_neg (by simp [hx])]
      exact ih h
    | some y =>
      rw [List.filterMap_cons_some (b := g x y) (by simp [hx]),
        List.filter_cons_of_pos (by simp [hx]), List.mapIdx_cons]
      exact .cons (h 0 x y hx) (ih fun n => h (n + 1))

namespace Counters.Entry

/-- The entries of a message that is sent on: its arrival, each server that was reached, and a drop
if there is none. -/
def sending (name : String) (client : Option String) (servers : List String) : List Entry :=
  requestReceived name client :: (servers.map fun server => requestSent name server client) ++
    if servers = [] then [dropped name] else []

variable {name : String} {client : Option String} {servers : List String}

/-- The entries concern the client of the message and no other. -/
theorem client_eq_of_mem_sending {e : Entry} (h : e ∈ sending name client servers) {other : String}
    (hother : e.client? = some other) : client = some other := by
  rcases List.mem_append.1 h with h | h
  · rcases List.mem_cons.1 h with rfl | h
    · exact hother
    · obtain ⟨server, -, rfl⟩ := List.mem_map.1 h
      exact hother
  · split at h
    · obtain rfl := List.mem_singleton.1 h
      cases hother
    · cases h

/-- Requests that were sent are counted among the entries once for each server that was reached. -/
theorem countP_sending {p : Entry → Bool} (hp : ∀ e, p e = true → e.activity = .requestSent) :
    (sending name client servers).countP p =
      servers.countP fun server => p (requestSent name server client) := by
  have harrival : p (requestReceived name client) = false :=
    Bool.eq_false_iff.2 fun h => by cases hp _ h
  have hdropped : p (dropped name) = false := Bool.eq_false_iff.2 fun h => by cases hp _ h
  rw [sending, List.countP_append, List.countP_cons_of_neg (by simp [harrival]), List.countP_map]
  split
  · rw [List.countP_singleton, hdropped]
    rfl
  · rfl

/-- Among the entries there is one drop if no server was reached, and otherwise none. -/
theorem countP_dropped_sending (other : String) :
    (sending name client servers).countP (fun e => e.activity = .dropped ∧ e.interface = other) =
      if servers = [] ∧ name = other then 1 else 0 := by
  have hsent : (servers.map fun server => requestSent name server client).countP
      (fun e => e.activity = .dropped ∧ e.interface = other) = 0 := by
    rw [List.countP_map]
    exact List.countP_eq_zero.2 fun server _ => by simp [activity]
  rw [sending, List.countP_append, List.countP_cons, hsent]
  by_cases h : servers = [] <;> simp [h, activity, interface]

end Counters.Entry

end DhcpRelay
