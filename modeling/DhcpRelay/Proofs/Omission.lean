import DhcpRelay.Proofs.Counters

/-!
# Leaving out inputs

A run may be repeated without some of its inputs, which are marked. What it answers to the others,
and where it ends, is then compared with the run of all inputs. If every input that is kept is
answered alike in related states and relates the states again, and every input that is left out
keeps the states related, then both runs answer the inputs that are kept alike and end in related
states (`History.answers_rest`).

The relation between counters is that they are the same but for the drops on some interfaces
(`Counters.AlikeBut`). No change that is made of a record reads its drops, so all changes keep it.
-/

namespace DhcpRelay

/-! ## Marked runs -/

namespace History

/-- An input, and whether it is kept when others are left out. -/
structure Marked (ι : Type) where
  input : ι
  kept : Bool

section
variable {σ ι ο : Type} (take : σ → ι → σ) (answer : σ → ι → ο)

/-- All inputs. -/
def whole (ins : List (Marked ι)) : List ι := ins.map (·.input)

/-- The inputs that are kept. -/
def rest (ins : List (Marked ι)) : List ι := (ins.filter (·.kept)).map (·.input)

/-- The inputs that are left out. -/
def leftOut (ins : List (Marked ι)) : List ι := (ins.filter (!·.kept)).map (·.input)

/-- What is answered to each input of a run. -/
def trace : σ → List ι → List ο
  | _, [] => []
  | s, i :: ins => answer s i :: trace (take s i) ins

/-- What is answered in the run of all inputs to those that are kept. -/
def answers : σ → List (Marked ι) → List ο
  | _, [] => []
  | s, ⟨i, true⟩ :: ins => answer s i :: answers (take s i) ins
  | s, ⟨i, false⟩ :: ins => answers (take s i) ins

variable {take answer} {R : σ → σ → Prop} {P : ι → Prop}

/-- Inputs that keep states related can be left out, if the others are answered alike in related
states and keep them related as well. -/
theorem answers_rest
    (hkept : ∀ s s' i, R s s' → answer s i = answer s' i ∧ R (take s i) (take s' i))
    (hleft : ∀ s s' i, P i → R s s' → R (take s i) s') {ins : List (Marked ι)}
    (hins : ∀ i ∈ leftOut ins, P i) {s s' : σ} (h : R s s') :
    answers take answer s ins = trace take answer s' (rest ins) ∧
      R ((whole ins).foldl take s) ((rest ins).foldl take s') := by
  induction ins generalizing s s' with
  | nil => exact ⟨rfl, h⟩
  | cons m ins ih =>
    obtain ⟨i, kept⟩ := m
    cases kept with
    | true =>
      obtain ⟨hanswer, hnext⟩ := hkept s s' i h
      obtain ⟨hanswers, hend⟩ := ih hins hnext
      exact ⟨congrArg₂ List.cons hanswer hanswers, hend⟩
    | false =>
      obtain ⟨hi, hins⟩ := List.forall_mem_cons.1 hins
      exact ih hins (hleft s s' i hi h)

end

end History

/-! ## Counters that differ in drops -/

/-- A record without its drops. -/
def InterfaceRecord.undropped (r : InterfaceRecord) : InterfaceRecord := { r with drops := 0 }

namespace Counters

section
variable {σ : Type}

/-- The record of an interface, a new one if it has none. -/
def interfaceRecord (c : Counters σ) (name : String) : InterfaceRecord :=
  (c.interfaces.get? name).getD { name }

/-- Counters are the same but for the drops on the interfaces whose names are in `S`, and for
whether these have a record. -/
structure AlikeBut (S : String → Prop) (c c' : Counters σ) : Prop where
  clients_eq : c.clients = c'.clients
  servers_eq : c.servers = c'.servers
  record_eq (name : String) (h : ¬ S name) : c.interfaces.get? name = c'.interfaces.get? name
  undropped_eq (name : String) :
    (c.interfaceRecord name).undropped = (c'.interfaceRecord name).undropped

variable {S : String → Prop} {c c' : Counters σ}

theorem AlikeBut.refl (S : String → Prop) (c : Counters σ) : AlikeBut S c c :=
  ⟨rfl, rfl, fun _ _ => rfl, fun _ => rfl⟩

/-- A change of one interface's record leaves the other records alone. -/
theorem interfaceRecord_onInterface (c : Counters σ) (name : String)
    (f : InterfaceRecord → InterfaceRecord) (other : String) :
    (c.onInterface name f).interfaceRecord other =
      if other = name then f (c.interfaceRecord name) else c.interfaceRecord other := by
  unfold interfaceRecord onInterface
  rw [SortedTable.get?_upsert]
  split
  · next h => rw [h, Option.getD_some]
  · rfl

/-- A change that does not read the drops keeps counters alike. -/
theorem AlikeBut.onInterface (h : AlikeBut S c c') (name : String)
    {f : InterfaceRecord → InterfaceRecord}
    (hf : ∀ r, (f r).undropped = (f r.undropped).undropped) :
    AlikeBut S (c.onInterface name f) (c'.onInterface name f) where
  clients_eq := h.clients_eq
  servers_eq := h.servers_eq
  record_eq other hother := by
    unfold Counters.onInterface
    rw [SortedTable.get?_upsert, SortedTable.get?_upsert]
    split
    · next hname => rw [h.record_eq name (hname ▸ hother)]
    · exact h.record_eq other hother
  undropped_eq other := by
    rw [interfaceRecord_onInterface, interfaceRecord_onInterface]
    split
    · rw [hf, h.undropped_eq, ← hf]
    · exact h.undropped_eq other

theorem AlikeBut.onClient [Inhabited σ] (h : AlikeBut S c c') (client : String)
    (f : ClientRecord σ → ClientRecord σ) :
    AlikeBut S (c.onClient client f) (c'.onClient client f) :=
  { h with clients_eq := congrArg (·.upsert client { client, seen := default } f) h.clients_eq }

theorem AlikeBut.onServer (h : AlikeBut S c c') (interface server : String)
    (f : ServerRecord → ServerRecord) :
    AlikeBut S (c.onServer interface server f) (c'.onServer interface server f) :=
  { h with
    servers_eq :=
      congrArg (·.upsert (serverKey interface server) { interface, server } f) h.servers_eq }

theorem AlikeBut.drop (h : AlikeBut S c c') (name : String) :
    AlikeBut S (c.drop name) (c'.drop name) :=
  h.onInterface name fun _ => rfl

/-- A drop on an interface whose name is in `S` may be counted on one side only. -/
theorem AlikeBut.drop_left (h : AlikeBut S c c') {name : String} (hname : S name) :
    AlikeBut S (c.drop name) c' where
  clients_eq := h.clients_eq
  servers_eq := h.servers_eq
  record_eq other hother := by
    have hne : other ≠ name := fun he => hother (he ▸ hname)
    unfold Counters.drop Counters.onInterface
    rw [SortedTable.get?_upsert, if_neg hne]
    exact h.record_eq other hother
  undropped_eq other := by
    rw [Counters.drop, interfaceRecord_onInterface]
    split
    · next he =>
      rw [he]
      exact h.undropped_eq name
    · exact h.undropped_eq other

theorem AlikeBut.createInterface (h : AlikeBut S c c') (name : String) :
    AlikeBut S (c.createInterface name) (c'.createInterface name) :=
  h.onInterface name fun _ => rfl

theorem AlikeBut.deleteInterface (h : AlikeBut S c c') (name : String) :
    AlikeBut S (c.deleteInterface name) (c'.deleteInterface name) where
  clients_eq := h.clients_eq
  servers_eq := h.servers_eq
  record_eq other hother := by
    unfold Counters.deleteInterface
    rw [SortedTable.get?_erase_eq, SortedTable.get?_erase_eq, h.record_eq other hother]
  undropped_eq other := by
    unfold Counters.deleteInterface interfaceRecord
    rw [SortedTable.get?_erase_eq, SortedTable.get?_erase_eq]
    split
    · rfl
    · exact h.undropped_eq other

/-- What is counted one after another keeps counters alike, if each single thing does. -/
theorem AlikeBut.foldl {α : Type} {count : Counters σ → α → Counters σ}
    (hcount : ∀ c c' x, AlikeBut S c c' → AlikeBut S (count c x) (count c' x))
    (h : AlikeBut S c c') (xs : List α) : AlikeBut S (xs.foldl count c) (xs.foldl count c') := by
  induction xs generalizing c c' with
  | nil => exact h
  | cons x xs ih => exact ih (hcount c c' x h)

end

end Counters

end DhcpRelay
