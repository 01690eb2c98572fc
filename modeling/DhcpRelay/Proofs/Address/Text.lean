import Mathlib.Data.Option.Basic
import Mathlib.Data.List.TakeDrop
import DhcpRelay.Address.V6

/-!
# The characters of addresses

What is read as an address has hexadecimal digits, points and colons only (`AddressChar`), and an
IPv6 address has a colon. An address is written with a colon where it has to be, and never with an
underscore. So where an address follows on a name and an underscore, the text can be taken apart
again.
-/

namespace DhcpRelay

/-- A character that an address can have. -/
def AddressChar (c : Char) : Prop := c = '.' ∨ c = ':' ∨ Numeral.isDigit 16 c = true

instance (c : Char) : Decidable (AddressChar c) := inferInstanceAs (Decidable (_ ∨ _ ∨ _))

/-! ## Numerals -/

namespace Numeral

theorem underscore_notMem_decimal (n : Nat) : '_' ∉ (decimal n).toList := by
  rw [decimal, Nat.toList_repr]
  exact Nat.underscore_not_in_toDigits

theorem underscore_notMem_hex (n : Nat) : '_' ∉ (hex n).toList := by
  rw [hex, String.toList_ofList]
  have hdigit : ∀ d : Nat, '_' ≠ d.digitChar := fun d => (Nat.digitChar_ne '_' rfl).symm
  induction n using Nat.strongRecOn with
  | ind n ih =>
    rw [Nat.toDigits_eq_if (by decide)]
    split
    · simp [hdigit]
    · next hn =>
      have hdiv := ih (n / 16) (by omega)
      simp [hdiv, hdigit]

/-- A digit in a smaller radix is a hexadecimal digit. -/
theorem isDigit_sixteen {radix : Nat} (h : radix ≤ 16) {c : Char} (hc : isDigit radix c = true) :
    isDigit 16 c = true := by
  obtain ⟨v, hv⟩ := Option.isSome_iff_exists.1 hc
  obtain ⟨hvalue, hlt⟩ := Option.filter_eq_some_iff.1 hv
  refine Option.isSome_iff_exists.2 ⟨v, Option.filter_eq_some_iff.2 ⟨hvalue, ?_⟩⟩
  simp only [decide_eq_true_eq] at hlt ⊢
  omega

/-- Digits that are taken off the front are those in front of the rest. -/
theorem of_takeDigits? {radix limit : Nat} {cs digits rest : List Char} (hradix : radix ≤ 16)
    (h : takeDigits? radix limit cs = some (digits, rest)) :
    cs = digits ++ rest ∧ ∀ c ∈ digits, isDigit 16 c = true := by
  simp only [takeDigits?, List.span_eq_takeWhile_dropWhile] at h
  split at h
  · cases h
  · obtain ⟨rfl, rfl⟩ := Prod.mk.inj (Option.some.inj h)
    exact ⟨List.takeWhile_append_dropWhile.symm, fun c hc =>
      isDigit_sixteen hradix (List.all_eq_true.1 List.all_takeWhile c hc)⟩

end Numeral

/-- A character that stands neither in the separator nor in any of the texts between which it is put
does not stand in the whole. -/
theorem notMem_intercalate {c : Char} {sep : String} (hsep : c ∉ sep.toList) :
    ∀ {ss : List String}, (∀ s ∈ ss, c ∉ s.toList) → c ∉ (sep.intercalate ss).toList
  | [], _ => by simp
  | [s], h => by simpa using h s
  | s :: s' :: ss, h => by
    have hs := h s List.mem_cons_self
    have ih := notMem_intercalate hsep fun t ht => h t (List.mem_cons_of_mem s ht)
    rw [String.intercalate_cons_cons, String.toList_append, String.toList_append]
    simp only [List.mem_append, not_or]
    exact ⟨⟨hs, hsep⟩, ih⟩

/-! ## IPv4 addresses -/

namespace V4Address

theorem underscore_notMem_text (a : V4Address) : '_' ∉ a.text.toList := by
  refine notMem_intercalate (by decide) fun s hs => ?_
  obtain ⟨b, -, rfl⟩ := List.mem_map.1 hs
  exact Numeral.underscore_notMem_decimal b.toNat

/-- A number that is taken off the front is what stands in front of the rest. -/
theorem of_takeOctet? {cs rest : List Char} {b : UInt8} (h : takeOctet? cs = some (b, rest)) :
    ∃ used, cs = used ++ rest ∧ ∀ c ∈ used, AddressChar c := by
  simp only [takeOctet?, Option.bind_eq_bind, Option.bind_eq_some_iff, Option.pure_def,
    Option.some.injEq] at h
  obtain ⟨⟨digits, rest'⟩, htake, -, -, value, -, -, -, he⟩ := h
  obtain ⟨-, rfl⟩ := Prod.mk.inj he
  obtain ⟨hcs, hdigits⟩ := Numeral.of_takeDigits? (by decide) htake
  exact ⟨digits, hcs, fun c hc => .inr (.inr (hdigits c hc))⟩

/-- A point and a number that are taken off the front are what stands in front of the rest. -/
theorem of_takePointOctet? {cs rest : List Char} {b : UInt8}
    (h : takePointOctet? cs = some (b, rest)) :
    ∃ used, cs = used ++ rest ∧ ∀ c ∈ used, AddressChar c := by
  unfold takePointOctet? at h
  split at h
  · obtain ⟨used, rfl, hused⟩ := of_takeOctet? h
    exact ⟨'.' :: used, rfl, List.forall_mem_cons.2 ⟨.inl rfl, hused⟩⟩
  · cases h

/-- An address that is taken off the front is what stands in front of the rest. -/
theorem of_take? {cs rest : List Char} {a : V4Address} (h : take? cs = some (a, rest)) :
    ∃ used, cs = used ++ rest ∧ ∀ c ∈ used, AddressChar c := by
  simp only [take?, Option.bind_eq_bind, Option.bind_eq_some_iff, Option.pure_def,
    Option.some.injEq] at h
  obtain ⟨⟨w, cs₁⟩, h₁, ⟨x, cs₂⟩, h₂, ⟨y, cs₃⟩, h₃, ⟨z, cs₄⟩, h₄, he⟩ := h
  obtain ⟨-, rfl⟩ := Prod.mk.inj he
  obtain ⟨u₁, rfl, hu₁⟩ := of_takeOctet? h₁
  obtain ⟨u₂, rfl, hu₂⟩ := of_takePointOctet? h₂
  obtain ⟨u₃, rfl, hu₃⟩ := of_takePointOctet? h₃
  obtain ⟨u₄, rfl, hu₄⟩ := of_takePointOctet? h₄
  exact ⟨u₁ ++ u₂ ++ u₃ ++ u₄, by simp, by
    simp only [List.forall_mem_append]
    exact ⟨⟨⟨hu₁, hu₂⟩, hu₃⟩, hu₄⟩⟩

end V4Address

/-! ## IPv6 addresses -/

namespace V6Address

theorem underscore_notMem_groupsText (gs : List Nat) : '_' ∉ (groupsText gs).toList := by
  refine notMem_intercalate (by decide) fun s hs => ?_
  obtain ⟨g, -, rfl⟩ := List.mem_map.1 hs
  exact Numeral.underscore_notMem_hex g

theorem underscore_notMem_text (a : V6Address) : '_' ∉ a.text.toList := by
  unfold text
  split
  · next v4 _ => simp [V4Address.underscore_notMem_text v4]
  · dsimp only
    split
    · simp [underscore_notMem_groupsText]
    · exact underscore_notMem_groupsText a.groups

/-- Each two octets make a group. -/
theorem length_pairValues : ∀ bs : Bytes, (pairValues bs).length = bs.length / 2
  | [] => rfl
  | [_] => by simp [pairValues]
  | _ :: _ :: rest => by
    rw [pairValues, List.length_cons, length_pairValues rest, List.length_cons, List.length_cons]
    omega

/-- There are eight groups. -/
theorem length_groups (a : V6Address) : a.groups.length = 8 := by
  rw [groups, length_pairValues, a.octets.length_toList]

theorem colon_mem_text (a : V6Address) : ':' ∈ a.text.toList := by
  unfold text
  split
  · simp
  · dsimp only
    split
    · simp
    · have hlength := a.length_groups
      obtain ⟨g, h, gs, he⟩ : ∃ g h gs, a.groups = g :: h :: gs := by
        match hgs : a.groups with
        | [] | [_] => simp [hgs] at hlength
        | g :: h :: gs => exact ⟨g, h, gs, rfl⟩
      simp [he, groupsText, String.intercalate_cons_cons]

/-- A separator that is taken off the front is a colon, or nothing before the first group. -/
theorem of_takeSeparator? {first : Bool} {cs rest : List Char}
    (h : takeSeparator? first cs = some rest) :
    ∃ used, cs = used ++ rest ∧ (∀ c ∈ used, AddressChar c) ∧ (first = false → ':' ∈ used) := by
  unfold takeSeparator? at h
  split at h
  · next hfirst =>
    obtain rfl := Option.some.inj h
    exact ⟨[], rfl, by simp, by simp [hfirst]⟩
  · split at h
    · obtain rfl := Option.some.inj h
      exact ⟨[':'], rfl, by simp [AddressChar], by simp⟩
    · cases h

/-- A group that is taken off the front is what stands in front of the rest. -/
theorem of_takeGroup? {cs rest : List Char} {g : Nat} (h : takeGroup? cs = some (g, rest)) :
    ∃ used, cs = used ++ rest ∧ ∀ c ∈ used, AddressChar c := by
  simp only [takeGroup?, Option.bind_eq_bind, Option.bind_eq_some_iff, Option.pure_def,
    Option.some.injEq] at h
  obtain ⟨⟨digits, rest'⟩, htake, value, -, he⟩ := h
  obtain ⟨-, rfl⟩ := Prod.mk.inj he
  obtain ⟨hcs, hdigits⟩ := Numeral.of_takeDigits? (by decide) htake
  exact ⟨digits, hcs, fun c hc => .inr (.inr (hdigits c hc))⟩

/-- Groups that are taken off the front are what stands in front of the rest. After other groups
they begin with a colon, so there is one in three groups or more. -/
theorem of_takeGroups : ∀ {limit : Nat} {first : Bool} {cs rest : List Char} {gs : List Nat}
    {dotted : Bool}, takeGroups limit first cs = (gs, dotted, rest) →
      ∃ used, cs = used ++ rest ∧ (∀ c ∈ used, AddressChar c) ∧
        (first = false → gs ≠ [] → ':' ∈ used) ∧ (2 < gs.length → ':' ∈ used)
  | 0, first, cs, rest, gs, dotted, h => by
    cases h
    exact ⟨[], rfl, by simp, by simp, by simp⟩
  | limit + 1, first, cs, rest, gs, dotted, h => by
    unfold takeGroups at h
    dsimp only at h
    split at h
    · next v4 rest' hdotted =>
      cases h
      have htake : (takeSeparator? first cs >>= V4Address.take?) = some (v4, rest) := by
        split at hdotted
        · cases hdotted
        · exact hdotted
      obtain ⟨cs', hsep, hv4⟩ := Option.bind_eq_some_iff.1 htake
      obtain ⟨u, rfl, hu, hcolon⟩ := of_takeSeparator? hsep
      obtain ⟨u', rfl, hu'⟩ := V4Address.of_take? hv4
      refine ⟨u ++ u', by simp, List.forall_mem_append.2 ⟨hu, hu'⟩,
        fun hf _ => by simp [hcolon hf], fun hl => ?_⟩
      rw [length_pairValues, v4.octets.length_toList] at hl
      omega
    · split at h
      · cases h
        exact ⟨[], rfl, by simp, by simp, by simp⟩
      · next g rest' htake =>
        obtain ⟨cs', hsep, hgroup⟩ := Option.bind_eq_some_iff.1 htake
        obtain ⟨u, rfl, hu, hcolon⟩ := of_takeSeparator? hsep
        obtain ⟨u', rfl, hu'⟩ := of_takeGroup? hgroup
        obtain ⟨gs', dotted', rest'', hrest⟩ :
            ∃ gs' dotted' rest'', takeGroups limit false rest' = (gs', dotted', rest'') :=
          ⟨_, _, _, rfl⟩
        obtain ⟨u'', rfl, hu'', hlater, -⟩ := of_takeGroups hrest
        rw [hrest] at h
        cases h
        refine ⟨u ++ u' ++ u'', by simp,
          List.forall_mem_append.2 ⟨List.forall_mem_append.2 ⟨hu, hu'⟩, hu''⟩,
          fun hf _ => by simp [hcolon hf], fun hl => ?_⟩
        have hne : gs' ≠ [] := by
          rintro rfl
          simp at hl
        simp [hlater rfl hne]

/-- A text that is read as an address has a colon, and only characters of addresses. -/
theorem of_parse? {s : String} {a : V6Address} (h : parse? s = some a) :
    ':' ∈ s.toList ∧ ∀ c ∈ s.toList, AddressChar c := by
  unfold parse? at h
  obtain ⟨head, dotted, rest, hhead⟩ :
      ∃ head dotted rest, takeGroups 8 true s.toList = (head, dotted, rest) := ⟨_, _, _, rfl⟩
  obtain ⟨used, hs, hchars, -, hcolon⟩ := of_takeGroups hhead
  rw [hhead] at h
  rw [hs]
  dsimp only at h
  split at h
  · next hlength =>
    split at h
    · next hrest =>
      obtain rfl := List.isEmpty_iff.1 hrest
      rw [List.append_nil]
      exact ⟨hcolon (by omega), hchars⟩
    · cases h
  · split at h
    · cases h
    · split at h
      · next rest' =>
        obtain ⟨tail, dotted', rest'', htail⟩ : ∃ tail dotted' rest'',
            takeGroups (7 - head.length) true rest' = (tail, dotted', rest'') := ⟨_, _, _, rfl⟩
        obtain ⟨used', rfl, hchars', -⟩ := of_takeGroups htail
        rw [htail] at h
        dsimp only at h
        split at h
        · next hrest =>
          obtain rfl := List.isEmpty_iff.1 hrest
          refine ⟨by simp, ?_⟩
          simp only [List.append_nil, List.forall_mem_append, List.forall_mem_cons]
          exact ⟨hchars, .inr (.inl rfl), .inr (.inl rfl), hchars'⟩
        · cases h
      · cases h

end V6Address

end DhcpRelay
