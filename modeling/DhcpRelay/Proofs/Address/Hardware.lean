import DhcpRelay.Address.Hardware
import DhcpRelay.Proofs.Address.RoundTrip

/-!
# Hardware addresses read back

Octets are written as pairs of hexadecimal digits between colons. No digit is a colon, so the text
comes apart at its colons again (`HardwareAddress.ColonSeparated`), and each part is read as the
octet that it was written for. So octet strings have different texts whatever their lengths are
(`Bytes.colonHex_injective`), and an address is read as itself (`HardwareAddress.parse?_text`).

The reader takes more than the writer writes, as a part may have a sign and leading zeros, but
nothing that has other than six parts (`HardwareAddress.parse?_eq_none`).
-/

namespace DhcpRelay

/-! ## Digits -/

namespace Numeral

/-- The two digits of an octet spell it. -/
theorem digitsValue?_hexOctet (b : UInt8) : digitsValue? 16 (hexOctet b) = some b.toNat := by
  have hb := b.toNat_lt
  have hhigh : digit? 16 (Nat.digitChar (b.toNat / 16)) = some (b.toNat / 16) :=
    digit?_digitChar (by omega) (by decide)
  have hlow : digit? 16 (Nat.digitChar (b.toNat % 16)) = some (b.toNat % 16) :=
    digit?_digitChar (by omega) (by decide)
  simp [digitsValue?, hexOctet, hhigh, hlow, Nat.div_add_mod']

/-- An octet that is written is read as itself. -/
theorem octet?_hexOctet (b : UInt8) : octet? 16 (hexOctet b) = some b := by
  have hb := b.toNat_lt
  have hsign : Nat.digitChar (b.toNat / 16) ≠ '+' := Nat.digitChar_ne '+' rfl
  have hdigits : nat? 16 (hexOctet b) = some b.toNat := digitsValue?_hexOctet b
  unfold octet?
  split
  · next rest hplus => exact absurd (List.cons.inj hplus).1 hsign
  · simp [hdigits, show b.toNat ≤ 255 by omega]

/-- No digit of an octet is a colon. -/
theorem colon_notMem_hexOctet (b : UInt8) : ':' ∉ hexOctet b := by
  have hdigit : ∀ d : Nat, ':' ≠ d.digitChar := fun d => (Nat.digitChar_ne ':' rfl).symm
  simp [hexOctet, hdigit]

end Numeral

/-! ## Parts -/

namespace HardwareAddress

/-- The text is the parts with a colon between each two of them, and none of them has a colon. -/
structure ColonSeparated (cs : List Char) (parts : List (List Char)) : Prop where
  text_eq : cs = [':'].intercalate parts
  colon_notMem : ∀ part ∈ parts, ':' ∉ part

variable {cs : List Char} {parts : List (List Char)}

/-- The parts between colons are those of a list that is split at its colons. -/
theorem colonParts_eq_splitOn (cs : List Char) : colonParts cs = cs.splitOn ':' := by
  induction cs with
  | nil => rfl
  | cons c cs ih =>
    rw [List.splitOn_eq_splitOnP] at ih
    rw [colonParts, ih, List.splitOn_eq_splitOnP, List.splitOnP_cons_eq_if_modifyHead]
    simp only [beq_iff_eq]
    split
    · rfl
    · cases hparts : cs.splitOnP (· == ':') with
      | nil => exact absurd hparts (List.splitOnP_ne_nil _ _)
      | cons part parts => rfl

/-- No part between colons has a colon. -/
theorem colon_notMem_colonParts (cs : List Char) : ∀ part ∈ colonParts cs, ':' ∉ part := by
  induction cs with
  | nil => simp [colonParts]
  | cons c cs ih =>
    unfold colonParts
    split
    · simpa using ih
    · next hc =>
      split
      · next part parts hparts =>
        rw [hparts] at ih
        simpa [Ne.symm hc] using ih
      · simpa [eq_comm] using hc

/-- A text is its parts between colons. -/
theorem colonSeparated_colonParts (cs : List Char) : ColonSeparated cs (colonParts cs) where
  text_eq := by rw [colonParts_eq_splitOn, List.intercalate_splitOn]
  colon_notMem := colon_notMem_colonParts cs

/-- The parts of a text are those of which it consists. -/
theorem ColonSeparated.colonParts_eq (h : ColonSeparated cs parts) (hne : parts ≠ []) :
    colonParts cs = parts := by
  rw [colonParts_eq_splitOn, h.text_eq, List.splitOn_intercalate ':' h.colon_notMem hne]

/-! ## Octets in text -/

/-- The text of octets consists of the digits of each. -/
theorem colonSeparated_colonHex (bs : Bytes) :
    ColonSeparated bs.colonHex.toList (bs.map Numeral.hexOctet) where
  text_eq := by simp [Bytes.colonHex, String.toList_intercalate, Function.comp_def]
  colon_notMem := by
    rintro part hpart
    obtain ⟨b, -, rfl⟩ := List.mem_map.1 hpart
    exact Numeral.colon_notMem_hexOctet b

/-- Reading as many parts as there are gives as many octets. -/
theorem length_of_mapM_octet? {parts : List (List Char)} {octets : Bytes}
    (h : parts.mapM (Numeral.octet? 16) = some octets) : octets.length = parts.length := by
  induction parts generalizing octets with
  | nil =>
    cases h
    rfl
  | cons part parts ih =>
    simp only [List.mapM_cons, Option.bind_eq_bind, Option.bind_eq_some_iff, Option.pure_def,
      Option.some.injEq] at h
    obtain ⟨b, -, bs, hbs, rfl⟩ := h
    rw [List.length_cons, List.length_cons, ih hbs]

/-- The digits of octets are read as the octets. -/
theorem mapM_octet?_hexOctet (bs : Bytes) :
    (bs.map Numeral.hexOctet).mapM (Numeral.octet? 16) = some bs := by
  induction bs with
  | nil => rfl
  | cons b bs ih => simp [List.mapM_cons, Numeral.octet?_hexOctet, ih]

/-- What is written of octets is read as the octets, unless there are none: the empty text has one
part, which is no octet. -/
theorem mapM_octet?_colonHex (bs : Bytes) :
    (colonParts bs.colonHex.toList).mapM (Numeral.octet? 16) =
      if bs = [] then none else some bs := by
  split
  · next hnil =>
    subst hnil
    rfl
  · next hne =>
    rw [(colonSeparated_colonHex bs).colonParts_eq (by simpa using hne), mapM_octet?_hexOctet]

end HardwareAddress

/-- Different octet strings have different texts. -/
theorem Bytes.colonHex_injective : Function.Injective Bytes.colonHex := by
  intro as bs h
  have hread := HardwareAddress.mapM_octet?_colonHex as
  rw [h, HardwareAddress.mapM_octet?_colonHex] at hread
  cases as with
  | nil =>
    cases bs with
    | nil => rfl
    | cons b bs => simp at hread
  | cons a as =>
    cases bs with
    | nil => simp at hread
    | cons b bs => simpa using hread.symm

namespace HardwareAddress

/-! ## Addresses -/

/-- An address that is written is read as itself. -/
theorem parse?_text (a : HardwareAddress) : parse? a.text.toList = some a := by
  have hne : a.octets.toList ≠ [] := by
    intro hnil
    have hlength := a.octets.length_toList
    rw [hnil] at hlength
    cases hlength
  have hoctets : Octets.ofList? 6 a.octets.toList = some a.octets :=
    Octets.ofList?_eq_some_iff.2 rfl
  simp only [parse?, text, mapM_octet?_colonHex, if_neg hne, Option.bind_eq_bind, Option.bind_some,
    hoctets, Option.map_some]

/-- A text that does not consist of six parts is no address. -/
theorem parse?_eq_none {cs : List Char}
    (h : ∀ parts, ColonSeparated cs parts → parts.length ≠ 6) : parse? cs = none := by
  rw [Option.eq_none_iff_forall_ne_some]
  intro a ha
  simp only [parse?, Option.bind_eq_bind, Option.bind_eq_some_iff, Option.map_eq_some_iff] at ha
  obtain ⟨_, hread, octets, hoctets, -⟩ := ha
  obtain rfl := Octets.ofList?_eq_some_iff.1 hoctets
  have hlength := length_of_mapM_octet? hread
  rw [octets.length_toList] at hlength
  exact h _ (colonSeparated_colonParts cs) hlength.symm

end HardwareAddress

end DhcpRelay
