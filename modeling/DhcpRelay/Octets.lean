/-!
# Octet strings

Packets are lists of octets. This module holds what every wire format needs of them: taking a
stated number of octets off the front (`Bytes.split?`), strings of a fixed length (`Octets n`), and
numbers in network byte order (`Octets.ofNat`, `Octets.toNat`).
-/

namespace DhcpRelay

/-- An octet string. -/
abbrev Bytes := List UInt8

/-! ## Splitting -/

/-- Takes exactly `n` octets off the front; `none` if there are fewer. -/
def Bytes.split? : Nat → Bytes → Option (Bytes × Bytes)
  | 0, bs => some ([], bs)
  | _ + 1, [] => none
  | n + 1, b :: bs => (split? n bs).map fun (front, rest) => (b :: front, rest)

/-- A split is a division of the string whose first part has the stated length. -/
theorem Bytes.split?_eq_some_iff {n : Nat} {bs front rest : Bytes} :
    Bytes.split? n bs = some (front, rest) ↔ bs = front ++ rest ∧ front.length = n := by
  induction n generalizing bs front with
  | zero =>
    simp only [split?, Option.some.injEq, Prod.mk.injEq, List.length_eq_zero_iff]
    constructor
    · rintro ⟨rfl, rfl⟩; simp
    · rintro ⟨rfl, rfl⟩; simp
  | succ n ih =>
    cases bs with
    | nil =>
      simp only [split?, reduceCtorEq, false_iff, not_and]
      intro h
      simp [(List.append_eq_nil_iff.1 h.symm).1]
    | cons b bs =>
      simp only [split?, Option.map_eq_some_iff, Prod.mk.injEq, Prod.exists]
      constructor
      · rintro ⟨f, r, h, rfl, rfl⟩
        obtain ⟨rfl, hf⟩ := ih.1 h
        simp [hf]
      · rintro ⟨h, hl⟩
        cases front with
        | nil => simp at hl
        | cons c front =>
          simp only [List.cons_append, List.cons.injEq] at h
          obtain ⟨rfl, h⟩ := h
          exact ⟨front, rest, ih.2 ⟨h, by simpa using hl⟩, rfl, rfl⟩

/-- What is left after a split is no longer than the whole. -/
theorem Bytes.length_rest_le {n : Nat} {bs front rest : Bytes}
    (h : Bytes.split? n bs = some (front, rest)) : rest.length ≤ bs.length := by
  obtain ⟨rfl, _⟩ := Bytes.split?_eq_some_iff.1 h
  simp

/-! ## Strings of a fixed length -/

/-- Exactly `n` octets. -/
structure Octets (n : Nat) where
  toList : Bytes
  length_toList : toList.length = n
  deriving DecidableEq, Repr

namespace Octets

theorem ext_toList {n : Nat} {a b : Octets n} (h : a.toList = b.toList) : a = b := by
  cases a; cases b; congr

/-- `n` times the same octet. -/
def replicate (n : Nat) (b : UInt8) : Octets n := ⟨List.replicate n b, List.length_replicate⟩

instance {n : Nat} : Inhabited (Octets n) := ⟨replicate n 0⟩

/-- A string of the right length. -/
def ofList? (n : Nat) (bs : Bytes) : Option (Octets n) :=
  if h : bs.length = n then some ⟨bs, h⟩ else none

/-- The `n` octets of `data` from position `start` on. -/
def slice (data : Bytes) (start n : Nat) (h : start + n ≤ data.length) : Octets n :=
  ⟨(data.drop start).take n, by simp only [List.length_take, List.length_drop]; omega⟩

/-! ## Numbers in network byte order -/

/-- The number that an octet string spells, most significant octet first. -/
def valueOf (bs : Bytes) : Nat := bs.foldl (fun acc b => acc * 256 + b.toNat) 0

/-- The last `n` octets of a number, most significant first. -/
def digitsOf : Nat → Nat → Bytes
  | 0, _ => []
  | n + 1, v => digitsOf n (v / 256) ++ [UInt8.ofNat v]

theorem length_digitsOf (n v : Nat) : (digitsOf n v).length = n := by
  induction n generalizing v with
  | zero => rfl
  | succ n ih => simp [digitsOf, ih]

/-- The number in `n` octets, its higher part cut off. -/
def ofNat (n v : Nat) : Octets n := ⟨digitsOf n v, length_digitsOf n v⟩

/-- The number that the octets spell. -/
def toNat {n : Nat} (o : Octets n) : Nat := valueOf o.toList

theorem valueOf_append_singleton (bs : Bytes) (b : UInt8) :
    valueOf (bs ++ [b]) = valueOf bs * 256 + b.toNat := by
  simp [valueOf, List.foldl_append]

/-- Reading back a written number gives it modulo the range of the octets. -/
theorem toNat_ofNat (n v : Nat) : (ofNat n v).toNat = v % Nat.pow 256 n := by
  simp only [toNat, ofNat]
  induction n generalizing v with
  | zero => simp [digitsOf, valueOf, Nat.mod_one]
  | succ n ih =>
    have byte : (UInt8.ofNat v).toNat = v % 256 := by simp
    have range : Nat.pow 256 (n + 1) = 256 * Nat.pow 256 n := Nat.mul_comm _ _
    rw [digitsOf, valueOf_append_singleton, ih, byte, range, Nat.mod_mul]
    omega

end Octets

end DhcpRelay
