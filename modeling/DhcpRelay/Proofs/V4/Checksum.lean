import Mathlib.Algebra.GroupWithZero.Nat
import DhcpRelay.Proofs.Octets
import DhcpRelay.V4.Frame

/-!
# Ones' complement sums

A checksum is computed from a plain sum of 16-bit words in 32 bits, whose upper half is added to its
lower half in the end. What it stands for is the ones' complement sum of the words, in which every
carry is added at once at the other end (`onesSum`). Both depend on the plain sum alone, and on it
only modulo 0xFFFF, where zero and 0xFFFF are told apart (`onesOf`).

As long as the plain sum fits 32 bits, no addition wraps (`sumsTruly_of_lt`), and the checksum is
the complement of the ones' complement sum (`toNat_checksum`). A field of two octets at an even
position into which that complement is written brings the sum to 0xFFFF, so that the checksum of the
whole is zero (`onesSum_of_filled`); 0xFFFF in the place of zero does the same.
-/

namespace DhcpRelay.V4

/-! ## Words -/

/-- The numbers that each two octets spell. An odd last octet is the high half of a number. -/
def words : Bytes → List Nat
  | hi :: lo :: rest => (hi.toNat * 256 + lo.toNat) :: words rest
  | [hi] => [hi.toNat * 256]
  | [] => []

/-- Adds two numbers of 16 bits. What is carried out of 16 bits is added at the other end. -/
def endAroundAdd (a b : Nat) : Nat := (a + b) % 0x10000 + (a + b) / 0x10000

/-- The ones' complement sum of the words of an octet string. -/
def onesSum (bs : Bytes) : Nat := (words bs).foldl endAroundAdd 0

/-- The ones' complement sum of words with the given plain sum: zero if that is zero, and otherwise
its remainder modulo 0xFFFF, with 0xFFFF in the place of zero. -/
def onesOf (n : Nat) : Nat := if n = 0 then 0 else (n - 1) % 0xFFFF + 1

section
variable {front back bs : Bytes} {sum : UInt32}

/-- A word has 16 bits. -/
theorem le_of_mem_words {w : Nat} (h : w ∈ words bs) : w ≤ 0xFFFF := by
  induction bs using words.induct with
  | case1 hi lo rest ih =>
    have hhi := hi.toNat_lt
    have hlo := lo.toNat_lt
    rcases List.mem_cons.1 h with rfl | h
    · omega
    · exact ih h
  | case2 hi =>
    have hhi := hi.toNat_lt
    obtain rfl := List.mem_singleton.1 h
    omega
  | case3 => cases h

/-- Behind an even number of octets words begin anew. -/
theorem words_append (h : front.length % 2 = 0) (back : Bytes) :
    words (front ++ back) = words front ++ words back := by
  induction front using words.induct with
  | case1 hi lo rest ih =>
    have hrest : rest.length % 2 = 0 := by
      simp only [List.length_cons] at h
      omega
    simp only [List.cons_append, words, ih hrest]
  | case2 hi => simp at h
  | case3 => rfl

/-- A number that is written in two octets is a word. -/
theorem words_digitsOf_append {v : Nat} (hv : v < 0x10000) (back : Bytes) :
    words (Octets.digitsOf 2 v ++ back) = v :: words back := by
  have hword : (UInt8.ofNat (v / 256)).toNat * 256 + (UInt8.ofNat v).toNat = v := by
    rw [UInt8.toNat_ofNat', UInt8.toNat_ofNat']
    omega
  simp only [Octets.digitsOf, List.nil_append, List.cons_append, words, hword]

/-- The sum of words is no larger than if all were the largest word. -/
theorem sum_words_le (bs : Bytes) : (words bs).sum ≤ (bs.length + 1) / 2 * 0xFFFF := by
  induction bs using words.induct with
  | case1 hi lo rest ih =>
    have hhi := hi.toNat_lt
    have hlo := lo.toNat_lt
    simp only [words, List.sum_cons, List.length_cons]
    omega
  | case2 hi =>
    have hhi := hi.toNat_lt
    simp only [words, List.sum_cons, List.sum_nil, List.length_cons, List.length_nil]
    omega
  | case3 => simp [words]

/-- The sum of the words of up to 65536 octets fits 32 bits. -/
theorem sum_words_lt (h : bs.length ≤ 0x10000) : (words bs).sum < 2 ^ 32 := by
  have hsum := sum_words_le bs
  omega

/-- More octets make no smaller sum. -/
theorem sum_words_le_append (front back : Bytes) :
    (words front).sum ≤ (words (front ++ back)).sum := by
  induction front using words.induct with
  | case1 hi lo rest ih =>
    simp only [List.cons_append, words, List.sum_cons]
    omega
  | case2 hi =>
    cases back with
    | nil => exact Nat.le_refl _
    | cons lo back =>
      simp only [List.cons_append, List.nil_append, words, List.sum_cons, List.sum_nil]
      omega
  | case3 => exact Nat.zero_le _

/-! ## Sums -/

/-- Adding a word to a ones' complement sum. -/
theorem endAroundAdd_onesOf (a : Nat) {b : Nat} (hb : b ≤ 0xFFFF) :
    endAroundAdd (onesOf a) b = onesOf (a + b) := by
  unfold endAroundAdd onesOf
  split <;> split <;> omega

/-- The ones' complement sum is determined by the plain sum. -/
theorem onesSum_eq (bs : Bytes) : onesSum bs = onesOf (words bs).sum := by
  have hfold (ws : List Nat) (hws : ∀ w ∈ ws, w ≤ 0xFFFF) (a : Nat) :
      ws.foldl endAroundAdd (onesOf a) = onesOf (a + ws.sum) := by
    induction ws generalizing a with
    | nil => rfl
    | cons w ws ih =>
      obtain ⟨hw, hws⟩ := List.forall_mem_cons.1 hws
      rw [List.foldl_cons, endAroundAdd_onesOf a hw, ih hws, List.sum_cons, Nat.add_assoc]
  have hall := hfold (words bs) (fun _ hw => le_of_mem_words hw) 0
  rwa [Nat.zero_add] at hall

/-- A ones' complement sum has 16 bits. -/
theorem onesSum_le (bs : Bytes) : onesSum bs ≤ 0xFFFF := by
  rw [onesSum_eq]
  unfold onesOf
  split <;> omega

/-- The sum of 32 bits of what comes first goes on with what comes behind it. -/
theorem sumWords_append (h : front.length % 2 = 0) (sum : UInt32) (back : Bytes) :
    sumWords sum (front ++ back) = sumWords (sumWords sum front) back := by
  induction front using words.induct generalizing sum with
  | case1 hi lo rest ih =>
    have hrest : rest.length % 2 = 0 := by
      simp only [List.length_cons] at h
      omega
    simp only [List.cons_append, sumWords, ih hrest]
  | case2 hi => simp at h
  | case3 => rfl

/-- A sum that fits 32 bits is the true one. -/
theorem toNat_sumWords (h : sum.toNat + (words bs).sum < 2 ^ 32) :
    (sumWords sum bs).toNat = sum.toNat + (words bs).sum := by
  induction bs using words.induct generalizing sum with
  | case1 hi lo rest ih =>
    have hhi := hi.toNat_lt
    have hlo := lo.toNat_lt
    simp only [words, List.sum_cons] at h ⊢
    have hnext : (sum + (hi.toUInt32 * 256 + lo.toUInt32)).toNat =
        sum.toNat + (hi.toNat * 256 + lo.toNat) := by
      simp only [UInt32.toNat_add, UInt32.toNat_mul, UInt8.toNat_toUInt32, UInt32.reduceToNat]
      omega
    rw [sumWords, ih (by omega), hnext]
    omega
  | case2 hi =>
    have hhi := hi.toNat_lt
    simp only [words, List.sum_cons, List.sum_nil] at h ⊢
    simp only [sumWords, UInt32.toNat_add, UInt32.toNat_mul, UInt8.toNat_toUInt32,
      UInt32.reduceToNat]
    omega
  | case3 => rfl

/-- At every step of the way the sum of 32 bits is the true one: no addition wraps. -/
def SumsTruly (sum : UInt32) (bs : Bytes) : Prop :=
  ∀ front, front <+: bs → (sumWords sum front).toNat = sum.toNat + (words front).sum

/-- No addition wraps on the way to a sum that fits 32 bits. -/
theorem sumsTruly_of_lt (h : sum.toNat + (words bs).sum < 2 ^ 32) : SumsTruly sum bs := by
  rintro front ⟨back, rfl⟩
  have hfront := sum_words_le_append front back
  exact toNat_sumWords (by omega)

/-- The way from the sum of what comes first is a part of the way through the whole. -/
theorem SumsTruly.behind (hfront : front.length % 2 = 0) (h : SumsTruly sum (front ++ back)) :
    SumsTruly (sumWords sum front) back := by
  rintro mid ⟨rest, rfl⟩
  have hwhole := h (front ++ mid) ⟨rest, by rw [List.append_assoc]⟩
  have hpart := h front ⟨mid ++ rest, rfl⟩
  rw [sumWords_append hfront, words_append hfront, List.sum_append] at hwhole
  omega

/-! ## Checksums -/

/-- Two carries bring a sum of 32 bits to the ones' complement sum. -/
theorem toNat_carry_carry (sum : UInt32) : (carry (carry sum)).toNat = onesOf sum.toNat := by
  have hsum := sum.toNat_lt
  have hcarry (s : UInt32) : (carry s).toNat = s.toNat % 0x10000 + s.toNat / 0x10000 := by
    have hs := s.toNat_lt
    simp only [carry, UInt32.toNat_add, UInt32.toNat_mod, UInt32.toNat_div, UInt32.reduceToNat]
    omega
  rw [hcarry, hcarry]
  unfold onesOf
  split <;> omega

/-- The checksum of a sum is the complement of the ones' complement sum. -/
theorem toNat_complementOfSum (sum : UInt32) :
    (complementOfSum sum).toNat = 0xFFFF - onesOf sum.toNat := by
  have hle : onesOf sum.toNat ≤ 0xFFFF := by
    unfold onesOf
    split <;> omega
  rw [complementOfSum, UInt16.toNat_not, UInt32.toNat_toUInt16, toNat_carry_carry]
  simp only [UInt16.size]
  omega

/-- The checksum of octets whose sum fits 32 bits is the complement of their ones' complement
sum. -/
theorem toNat_checksum (h : (words bs).sum < 2 ^ 32) :
    (checksum bs).toNat = 0xFFFF - onesSum bs := by
  have hsum : (sumWords 0 bs).toNat = (words bs).sum := by
    rw [toNat_sumWords (by simpa using h)]
    simp
  rw [checksum, toNat_complementOfSum, hsum, onesSum_eq]

/-- A checksum is zero exactly if the ones' complement sum is 0xFFFF. -/
theorem checksum_eq_zero_iff (h : (words bs).sum < 2 ^ 32) :
    checksum bs = 0 ↔ onesSum bs = 0xFFFF := by
  have hle := onesSum_le bs
  rw [← UInt16.toNat_inj, toNat_checksum h]
  simp only [UInt16.reduceToNat]
  omega

/-! ## Filled in checksums -/

/-- The words of a string with a number in two of its octets. -/
theorem sum_words_field (hfront : front.length % 2 = 0) (v : UInt16) (back : Bytes) :
    (words (front ++ (Octets.digitsOf 2 v.toNat ++ back))).sum =
      (words front).sum + v.toNat + (words back).sum := by
  rw [words_append hfront, words_digitsOf_append v.toNat_lt, List.sum_append, List.sum_cons,
    Nat.add_assoc]

/-- Writing the complement of the sum of the rest into two octets that were zero brings the ones'
complement sum to 0xFFFF, and so does writing 0xFFFF if the complement is zero. -/
theorem onesSum_of_filled (hfront : front.length % 2 = 0) {v : UInt16}
    (hv : let rest := onesSum (front ++ (Octets.digitsOf 2 (0 : UInt16).toNat ++ back))
      v.toNat = 0xFFFF - rest ∨ rest = 0xFFFF ∧ v.toNat = 0xFFFF) :
    onesSum (front ++ (Octets.digitsOf 2 v.toNat ++ back)) = 0xFFFF := by
  simp only [onesSum_eq, sum_words_field hfront] at hv ⊢
  simp only [onesOf, UInt16.reduceToNat] at hv ⊢
  split at hv <;> split <;> omega

end

end DhcpRelay.V4
