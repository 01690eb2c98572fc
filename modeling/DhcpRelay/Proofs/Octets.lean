import DhcpRelay.Octets
import Mathlib.Algebra.GroupWithZero.Nat
import Mathlib.Data.List.Induction

/-!
# Fields of octet strings

A header is written as one field after another, each of a fixed length, and read by taking each
field from its position. If the positions are those that the lengths add up to, what is read is what
was written (`Bytes.field_flatten`), also as octets of a fixed length (`Octets.slice_flatten`) and
as a number (`Octets.valueOf_digitsOf`). The other way round, what is written again is what was
read: fields that stand one after another are together the string they were taken from
(`Bytes.take_append_field`), and the digits of the number that a field spells are the field
(`Octets.ofNat_toNat`).
-/

namespace DhcpRelay

/-- A string is too short to be split exactly if it has fewer octets than are asked for. -/
theorem Bytes.split?_eq_none_iff {n : Nat} {bs : Bytes} :
    Bytes.split? n bs = none ↔ bs.length < n := by
  induction n generalizing bs with
  | zero => simp [split?]
  | succ n ih =>
    cases bs with
    | nil => simp [split?]
    | cons b bs => simp [split?, ih]

/-- The `n` octets from position `start` on. -/
def Bytes.field (bs : Bytes) (start n : Nat) : Bytes := (bs.drop start).take n

/-- Behind the parts before it a part is read as it was written. -/
theorem Bytes.field_flatten {data part : Bytes} {parts : List Bytes} (hdata : data = parts.flatten)
    {k start n : Nat} (hpart : parts[k]? = some part)
    (hstart : (parts.take k).flatten.length = start) (hn : part.length = n) :
    data.field start n = part := by
  obtain ⟨hk, rfl⟩ := List.getElem?_eq_some_iff.1 hpart
  have hsplit : data = (parts.take k).flatten ++ (parts[k] ++ (parts.drop (k + 1)).flatten) := by
    rw [hdata, ← List.flatten_cons, ← List.drop_eq_getElem_cons hk, ← List.flatten_append,
      List.take_append_drop]
  rw [field, hsplit, List.drop_left' hstart, List.take_left' hn]

/-- What stands behind the parts before it is read as it was written. -/
theorem Bytes.drop_flatten {data : Bytes} {parts : List Bytes} (hdata : data = parts.flatten)
    {k start : Nat} (hstart : (parts.take k).flatten.length = start) :
    data.drop start = (parts.drop k).flatten := by
  have hsplit : data = (parts.take k).flatten ++ (parts.drop k).flatten := by
    rw [hdata, ← List.flatten_append, List.take_append_drop]
  rw [hsplit, List.drop_left' hstart]

/-- What comes before a field and the field are together what comes before its end. -/
theorem Bytes.take_append_field (bs : Bytes) (start n : Nat) :
    bs.take start ++ bs.field start n = bs.take (start + n) := List.take_add.symm

namespace Octets

attribute [simp] length_toList length_digitsOf

/-- Exactly the octets of a string of a fixed length are taken for it. -/
theorem ofList?_eq_some_iff {n : Nat} {bs : Bytes} {o : Octets n} :
    ofList? n bs = some o ↔ bs = o.toList := by
  unfold ofList?
  split
  · next hlength =>
    rw [Option.some.injEq]
    constructor
    · rintro rfl
      rfl
    · exact fun hbs => ext_toList hbs
  · next hlength =>
    exact iff_of_false (Option.some_ne_none o).symm fun hbs => hlength (hbs ▸ o.length_toList)

/-- A slice is a field. -/
theorem toList_slice {data : Bytes} {start n : Nat} (h : start + n ≤ data.length) :
    (slice data start n h).toList = data.field start n := rfl

/-- Behind the parts before it a string of a fixed length is read as it was written. -/
theorem slice_flatten {data : Bytes} {parts : List Bytes} (hdata : data = parts.flatten)
    {k start n : Nat} {o : Octets n} (hpart : parts[k]? = some o.toList)
    (hstart : (parts.take k).flatten.length = start) (h : start + n ≤ data.length) :
    slice data start n h = o :=
  ext_toList (Bytes.field_flatten hdata hpart hstart o.length_toList)

/-- The digits of a number spell it modulo the range of the octets. -/
theorem valueOf_digitsOf (n v : Nat) : valueOf (digitsOf n v) = v % Nat.pow 256 n := toNat_ofNat n v

/-- A number that is spelled in `n` octets has as many. -/
theorem valueOf_lt (bs : Bytes) : valueOf bs < 256 ^ bs.length := by
  induction bs using List.reverseRecOn with
  | nil => simp [valueOf]
  | append_singleton bs b ih =>
    have hb := b.toNat_lt
    rw [valueOf_append_singleton, List.length_append, List.length_singleton, Nat.pow_succ]
    omega

/-- What comes first counts as often as what comes behind it has numbers. -/
theorem valueOf_append (front back : Bytes) :
    valueOf (front ++ back) = valueOf front * 256 ^ back.length + valueOf back := by
  induction back using List.reverseRecOn with
  | nil => simp [valueOf]
  | append_singleton back b ih =>
    rw [← List.append_assoc, valueOf_append_singleton, ih, valueOf_append_singleton,
      List.length_append, List.length_singleton, Nat.pow_succ, Nat.add_mul, Nat.mul_assoc,
      Nat.add_assoc]

/-- Cutting off the last octets leaves the number that the others spell. -/
theorem valueOf_append_div (front back : Bytes) :
    valueOf (front ++ back) / 256 ^ back.length = valueOf front := by
  rw [valueOf_append, Nat.mul_comm, Nat.mul_add_div (Nat.pow_pos (by decide)),
    Nat.div_eq_of_lt (valueOf_lt back), Nat.add_zero]

/-- The digits of the number that a string spells are the string. -/
theorem digitsOf_valueOf (bs : Bytes) : digitsOf bs.length (valueOf bs) = bs := by
  induction bs using List.reverseRecOn with
  | nil => rfl
  | append_singleton bs b ih =>
    have hb := b.toNat_lt
    have hfront : (valueOf bs * 256 + b.toNat) / 256 = valueOf bs := by omega
    have hlast : UInt8.ofNat (valueOf bs * 256 + b.toNat) = b := by
      rw [← UInt8.toNat_inj, UInt8.toNat_ofNat']
      omega
    rw [List.length_append, List.length_singleton, valueOf_append_singleton, digitsOf, hfront, ih,
      hlast]

/-- The digits of the number that two octets spell are these. -/
theorem digitsOf_two (b₁ b₀ : UInt8) : digitsOf 2 (b₁.toNat * 256 + b₀.toNat) = [b₁, b₀] := by
  simpa [valueOf] using digitsOf_valueOf [b₁, b₀]

/-- The number of a string of a fixed length is in the range of as many octets. -/
theorem toNat_lt {n : Nat} (o : Octets n) : o.toNat < 256 ^ n := by
  have hlt := valueOf_lt o.toList
  rwa [length_toList] at hlt

/-- Writing a number that was read gives what it was read from. -/
theorem ofNat_toNat {n : Nat} (o : Octets n) : ofNat n o.toNat = o := by
  have hdigits := digitsOf_valueOf o.toList
  rw [length_toList] at hdigits
  exact ext_toList hdigits

/-- Two strings of one length that spell the same number are the same. -/
theorem eq_of_valueOf_eq {as bs : Bytes} (hlength : as.length = bs.length)
    (h : valueOf as = valueOf bs) : as = bs := by
  rw [← digitsOf_valueOf as, ← digitsOf_valueOf bs, hlength, h]

end Octets

end DhcpRelay
