import DhcpRelay.Proofs.Address.Text
import DhcpRelay.Proofs.Octets

/-!
# Addresses read back

An address that is written is read as itself (`V4Address.take?_text`, `V6Address.parse?_text`), so
different addresses have different texts.

A reader takes as many digits as there are, so what follows a number has to begin with something
else: a point after an octet, a colon after a group, or nothing.
-/

namespace DhcpRelay

/-! ## Numerals -/

namespace Numeral

/-- A digit that is written is read as itself. -/
theorem digit?_digitChar {radix d : Nat} (hd : d < radix) (hradix : radix ≤ 16) :
    digit? radix (Nat.digitChar d) = some d := by
  have hall : ∀ d < 16, digit? 16 (Nat.digitChar d) = some d := by decide
  obtain ⟨hvalue, -⟩ := Option.filter_eq_some_iff.1 (hall d (by omega))
  exact Option.filter_eq_some_iff.2 ⟨hvalue, by simpa using hd⟩

theorem digitsValue?_append_singleton (radix : Nat) (cs : List Char) (c : Char) :
    digitsValue? radix (cs ++ [c]) =
      (digitsValue? radix cs).bind fun v => (digit? radix c).map (v * radix + ·) := by
  unfold digitsValue?
  rw [List.foldlM_append]
  cases cs.foldlM (fun acc c => (digit? radix c).map (acc * radix + ·)) 0 with
  | none => rfl
  | some v => cases h : digit? radix c <;> simp [h]

section
variable {radix : Nat}

/-- A number that is written is read as itself. -/
theorem digitsValue?_toDigits (hpos : 1 < radix) (hradix : radix ≤ 16) (n : Nat) :
    digitsValue? radix (Nat.toDigits radix n) = some n := by
  induction n using Nat.strongRecOn with
  | ind n ih =>
    rw [Nat.toDigits_eq_if hpos]
    split
    · next hn => simp [digitsValue?, digit?_digitChar hn hradix]
    · next hn =>
      have hdiv : n / radix < n := Nat.div_lt_self (by omega) hpos
      rw [digitsValue?_append_singleton, ih _ hdiv, Option.bind_some,
        digit?_digitChar (Nat.mod_lt n (by omega)) hradix, Option.map_some, Nat.div_add_mod']

/-- What is written of a number is digits. -/
theorem isDigit_of_mem_toDigits (hpos : 1 < radix) (hradix : radix ≤ 16) {n : Nat} :
    ∀ c ∈ Nat.toDigits radix n, isDigit radix c = true := by
  induction n using Nat.strongRecOn with
  | ind n ih =>
    have hdigit : ∀ d < radix, isDigit radix d.digitChar = true := fun d hd => by
      rw [isDigit, digit?_digitChar hd hradix]
      rfl
    rw [Nat.toDigits_eq_if hpos]
    split
    · next hn => simpa using hdigit n hn
    · next hn =>
      have hdiv : n / radix < n := Nat.div_lt_self (by omega) hpos
      rw [List.forall_mem_append]
      exact ⟨ih _ hdiv, by simpa using hdigit (n % radix) (Nat.mod_lt n (by omega))⟩

/-- The digits of a number are taken off the front if something else follows. -/
theorem takeDigits?_toDigits (hpos : 1 < radix) (hradix : radix ≤ 16) {n limit : Nat}
    (hlimit : (Nat.toDigits radix n).length ≤ limit) {rest : List Char}
    (hrest : ∀ c ∈ rest.head?, isDigit radix c = false) :
    takeDigits? radix limit (Nat.toDigits radix n ++ rest) =
      some (Nat.toDigits radix n, rest) := by
  have hall := isDigit_of_mem_toDigits hpos hradix (n := n)
  have hnone : rest.takeWhile (isDigit radix) = [] ∧ rest.dropWhile (isDigit radix) = rest := by
    cases rest with
    | nil => exact ⟨rfl, rfl⟩
    | cons c cs => simp [hrest c rfl]
  simp only [takeDigits?, List.span_eq_takeWhile_dropWhile, List.takeWhile_append_of_pos hall,
    List.dropWhile_append_of_pos hall, hnone.1, hnone.2, List.append_nil]
  rw [if_neg (by simpa using hlimit)]

/-- A number does not begin with a zero, unless it is one. -/
theorem head?_toDigits_ne (hpos : 1 < radix) (n : Nat) (hn : 0 < n) :
    (Nat.toDigits radix n).head? ≠ some '0' := by
  induction n using Nat.strongRecOn with
  | ind n ih =>
    rw [Nat.toDigits_eq_if hpos]
    split
    · simpa [eq_comm, Nat.zero_eq_digitChar] using Nat.ne_of_gt hn
    · next hlt =>
      have hdiv : n / radix < n := Nat.div_lt_self hn hpos
      have hhead := ih _ hdiv (Nat.div_pos (by omega) (by omega))
      obtain ⟨c, cs, hcs⟩ := List.exists_cons_of_ne_nil (@Nat.toDigits_ne_nil (n / radix) radix)
      rw [hcs] at hhead ⊢
      exact hhead

end

end Numeral

/-! ## IPv4 addresses -/

namespace V4Address

/-- An octet is read as itself if no digit follows. -/
theorem takeOctet?_decimal (b : UInt8) {rest : List Char}
    (hrest : ∀ c ∈ rest.head?, Numeral.isDigit 10 c = false) :
    takeOctet? ((Numeral.decimal b.toNat).toList ++ rest) = some (b, rest) := by
  have hlt := b.toNat_lt
  have hlength : (Nat.toDigits 10 b.toNat).length ≤ 3 :=
    (Nat.length_toDigits_le_iff (by decide) (by decide)).2 (by omega)
  have hlead : (Nat.toDigits 10 b.toNat).length = 1 ∨
      (Nat.toDigits 10 b.toNat).head? ≠ some '0' := by
    rcases Nat.eq_zero_or_pos b.toNat with hzero | hpos
    · exact .inl (by rw [hzero]; rfl)
    · exact .inr (Numeral.head?_toDigits_ne (by decide) _ hpos)
  rw [Numeral.decimal, Nat.toList_repr, takeOctet?,
    Numeral.takeDigits?_toDigits (by decide) (by decide) hlength hrest]
  simp only [Option.bind_eq_bind, Option.bind_some, guard, if_pos hlead,
    Numeral.digitsValue?_toDigits (show 1 < 10 by decide) (by decide),
    if_pos (show b.toNat ≤ 255 by omega)]
  simp

/-- An address that is written is read as itself if no digit follows. -/
theorem take?_text (a : V4Address) {rest : List Char}
    (hrest : ∀ c ∈ rest.head?, Numeral.isDigit 10 c = false) :
    take? (a.text.toList ++ rest) = some (a, rest) := by
  obtain ⟨⟨octets, hlength⟩⟩ := a
  match octets, hlength with
  | [w, x, y, z], hlength =>
    have hpoint : ∀ cs : List Char, ∀ c ∈ ('.' :: cs).head?, Numeral.isDigit 10 c = false := by
      rintro cs c ⟨⟩
      decide
    have htext : (⟨⟨[w, x, y, z], hlength⟩⟩ : V4Address).text.toList ++ rest =
        (Numeral.decimal w.toNat).toList ++ '.' :: ((Numeral.decimal x.toNat).toList ++ '.' ::
          ((Numeral.decimal y.toNat).toList ++ '.' ::
            ((Numeral.decimal z.toNat).toList ++ rest))) := by
      simp [text, String.intercalate_cons_cons]
    rw [htext, take?, takeOctet?_decimal w (hpoint _)]
    simp only [Option.bind_eq_bind, Option.bind_some, takePointOctet?,
      takeOctet?_decimal x (hpoint _), takeOctet?_decimal y (hpoint _), takeOctet?_decimal z hrest]
    rfl

/-- Hexadecimal digits without a point after them are not read as an address. -/
theorem take?_eq_none {cs rest : List Char} (hcs : ∀ c ∈ cs, Numeral.isDigit 16 c = true)
    (hrest : ∀ c ∈ rest.head?, c ≠ '.' ∧ Numeral.isDigit 16 c = false) :
    take? (cs ++ rest) = none := by
  rw [Option.eq_none_iff_forall_ne_some]
  rintro ⟨a, rest'⟩ h
  simp only [take?, takeOctet?, Option.bind_eq_bind, Option.bind_eq_some_iff, Option.pure_def,
    Option.some.injEq] at h
  obtain ⟨⟨w, cs₁⟩, ⟨⟨digits, cs₂⟩, htake, -, -, value, -, -, -, he⟩, ⟨x, cs₃⟩, hpoint, -⟩ := h
  obtain ⟨-, rfl⟩ := Prod.mk.inj he
  obtain ⟨hwhole, hdigits⟩ := Numeral.of_takeDigits? (by decide) htake
  unfold takePointOctet? at hpoint
  split at hpoint
  · next _ rest₁ hcs₂ =>
    obtain rfl : cs₂ = '.' :: rest₁ := hcs₂
    -- behind the hexadecimal digits both ways of dividing the text leave the same
    have hdrop := congrArg (List.dropWhile (Numeral.isDigit 16)) hwhole
    rw [List.dropWhile_append_of_pos hcs, List.dropWhile_append_of_pos hdigits,
      List.dropWhile_cons_of_neg (l := rest₁) (by decide)] at hdrop
    cases rest with
    | nil => cases hdrop
    | cons c rest =>
      obtain ⟨hne, hdigit⟩ := hrest c rfl
      rw [List.dropWhile_cons_of_neg (by simp [hdigit])] at hdrop
      exact hne (List.cons.inj hdrop).1
  · cases hpoint

end V4Address

/-! ## IPv6 addresses -/

namespace V6Address

/-! ### Groups -/

/-- Octets are those of the groups that they make. -/
theorem flatMap_pairValues : ∀ {bs : Bytes}, bs.length % 2 = 0 →
    (pairValues bs).flatMap (Octets.digitsOf 2) = bs
  | [], _ => rfl
  | [_], h => by simp at h
  | hi :: lo :: rest, h => by
    have hrest : rest.length % 2 = 0 := by
      simp only [List.length_cons] at h
      omega
    rw [pairValues, List.flatMap_cons, Octets.digitsOf_two, flatMap_pairValues hrest]
    rfl

/-- An address is that of its groups. -/
theorem ofGroups?_groups (a : V6Address) : ofGroups? a.groups = some a := by
  rw [ofGroups?, groups, flatMap_pairValues (by rw [a.octets.length_toList]),
    Octets.ofList?_eq_some_iff.2 rfl]
  rfl

/-- A group has 16 bits. -/
theorem lt_of_mem_pairValues {g : Nat} : ∀ {bs : Bytes}, g ∈ pairValues bs → g < 65536
  | hi :: lo :: rest, h => by
    rcases List.mem_cons.1 h with rfl | h
    · have hhi := hi.toNat_lt
      have hlo := lo.toNat_lt
      omega
    · exact lt_of_mem_pairValues h

/-- The longest run of zeros is one. -/
theorem longestZeros_spec (gs : List Nat) :
    (longestZeros gs).1 + (longestZeros gs).2 ≤ gs.length ∧
      (gs.drop (longestZeros gs).1).take (longestZeros gs).2 =
        List.replicate (longestZeros gs).2 0 := by
  induction gs with
  | nil => exact ⟨Nat.le_refl 0, rfl⟩
  | cons g gs ih =>
    rw [longestZeros]
    dsimp only
    split
    · have hrun : (g :: gs).takeWhile (· == 0) <+: g :: gs := List.takeWhile_prefix _
      refine ⟨by simpa using hrun.length_le, ?_⟩
      rw [List.drop_zero, ← List.prefix_iff_eq_take.1 hrun]
      refine List.eq_replicate_iff.2 ⟨rfl, fun x hx => ?_⟩
      exact beq_iff_eq.1 (List.all_eq_true.1 List.all_takeWhile x hx)
    · obtain ⟨hle, hzeros⟩ := ih
      refine ⟨?_, by simpa using hzeros⟩
      rw [List.length_cons]
      omega

/-! ### Reading groups -/

/-- What can follow on groups: nothing, or the `::` that stands for zeros. -/
def EndsGroups (rest : List Char) : Prop := rest = [] ∨ ∃ cs, rest = ':' :: ':' :: cs

/-- What can follow on a group: nothing, or a colon. -/
def EndsGroup (rest : List Char) : Prop := ∀ c ∈ rest.head?, c = ':'

theorem EndsGroups.endsGroup {rest : List Char} (h : EndsGroups rest) : EndsGroup rest := by
  rintro c hc
  obtain rfl | ⟨cs, rfl⟩ := h
  · cases hc
  · exact (Option.some.inj hc).symm

/-- The characters of groups each of which stands behind a colon. -/
def laterGroups (gs : List Nat) : List Char := gs.flatMap fun g => ':' :: (Numeral.hex g).toList

theorem endsGroup_laterGroups {rest : List Char} (h : EndsGroup rest) :
    ∀ gs : List Nat, EndsGroup (laterGroups gs ++ rest)
  | [] => h
  | _ :: _ => by
    rintro c ⟨⟩
    rfl

theorem toList_groupsText_cons (g : Nat) (gs : List Nat) :
    (groupsText (g :: gs)).toList = (Numeral.hex g).toList ++ laterGroups gs := by
  induction gs generalizing g with
  | nil => simp [groupsText, laterGroups]
  | cons h gs ih =>
    have hcons := ih h
    rw [groupsText, List.map_cons] at hcons
    rw [groupsText, List.map_cons, List.map_cons, String.intercalate_cons_cons,
      String.toList_append, String.toList_append, hcons]
    simp [laterGroups]

/-- A group that is written is read as itself if it has 16 bits and ends there. -/
theorem takeGroup?_hex {g : Nat} (hg : g < 65536) {rest : List Char} (hrest : EndsGroup rest) :
    takeGroup? ((Numeral.hex g).toList ++ rest) = some (g, rest) := by
  have hlength : (Nat.toDigits 16 g).length ≤ 4 :=
    (Nat.length_toDigits_le_iff (by decide) (by decide)).2 hg
  have hdigit : ∀ c ∈ rest.head?, Numeral.isDigit 16 c = false := fun c hc => by
    rw [hrest c hc]
    decide
  rw [Numeral.hex, String.toList_ofList, takeGroup?,
    Numeral.takeDigits?_toDigits (by decide) (by decide) hlength hdigit]
  simp [Numeral.digitsValue?_toDigits]

/-- A group is not read as an IPv4 address. -/
theorem take?_hex (g : Nat) {rest : List Char} (hrest : EndsGroup rest) :
    V4Address.take? ((Numeral.hex g).toList ++ rest) = none := by
  rw [Numeral.hex, String.toList_ofList]
  refine V4Address.take?_eq_none (Numeral.isDigit_of_mem_toDigits (by decide) (by decide))
    fun c hc => ?_
  rw [hrest c hc]
  decide

/-- A colon is no group and no IPv4 address. -/
theorem not_taken_colon (cs : List Char) :
    takeGroup? (':' :: cs) = none ∧ V4Address.take? (':' :: cs) = none := by
  refine ⟨rfl, ?_⟩
  show V4Address.take? ([] ++ ':' :: cs) = none
  exact V4Address.take?_eq_none nofun (by rintro c ⟨⟩; decide)

/-- A group in front of the others. -/
theorem takeGroups_cons {first : Bool} {cs cs' rest : List Char} {g : Nat}
    (hsep : takeSeparator? first cs = some cs') (hv4 : V4Address.take? cs' = none)
    (hgroup : takeGroup? cs' = some (g, rest)) (limit : Nat) :
    takeGroups (limit + 1) first cs =
      (g :: (takeGroups limit false rest).1, (takeGroups limit false rest).2) := by
  rw [takeGroups, hsep]
  simp only [Option.bind_eq_bind, Option.bind_some, hv4, hgroup, ite_self]

/-- Where groups end no other one is read. -/
theorem takeGroups_end {rest : List Char} (h : EndsGroups rest) (limit : Nat) (first : Bool) :
    takeGroups limit first rest = ([], false, rest) := by
  cases limit with
  | zero => rfl
  | succ limit =>
    obtain rfl | ⟨cs, rfl⟩ := h
    · cases first <;> cases limit <;> rfl
    · cases first with
      | true =>
        obtain ⟨hgroup, hv4⟩ := not_taken_colon (':' :: cs)
        simp [takeGroups, takeSeparator?, hgroup, hv4]
      | false =>
        obtain ⟨hgroup, hv4⟩ := not_taken_colon cs
        simp [takeGroups, takeSeparator?, hgroup, hv4]

/-- Groups that are written are read as themselves, each behind a colon. -/
theorem takeGroups_laterGroups {rest : List Char} (hrest : EndsGroups rest) :
    ∀ {gs : List Nat} {limit : Nat}, gs.length ≤ limit → (∀ g ∈ gs, g < 65536) →
      takeGroups limit false (laterGroups gs ++ rest) = (gs, false, rest)
  | [], limit, _, _ => takeGroups_end hrest limit false
  | g :: gs, limit + 1, hlimit, hgs => by
    obtain ⟨hg, hgs⟩ := List.forall_mem_cons.1 hgs
    have hlater := endsGroup_laterGroups hrest.endsGroup gs
    have hcs : laterGroups (g :: gs) ++ rest =
        ':' :: ((Numeral.hex g).toList ++ (laterGroups gs ++ rest)) := by
      simp [laterGroups]
    rw [hcs, takeGroups_cons rfl (take?_hex g hlater) (takeGroup?_hex hg hlater),
      takeGroups_laterGroups hrest (Nat.le_of_succ_le_succ hlimit) hgs]

/-- Groups that are written are read as themselves. -/
theorem takeGroups_groupsText {rest : List Char} (hrest : EndsGroups rest) {gs : List Nat}
    {limit : Nat} (hlimit : gs.length ≤ limit) (hgs : ∀ g ∈ gs, g < 65536) :
    takeGroups limit true ((groupsText gs).toList ++ rest) = (gs, false, rest) := by
  match gs, limit, hlimit with
  | [], limit, _ => exact takeGroups_end hrest limit true
  | g :: gs, limit + 1, hlimit =>
    obtain ⟨hg, hgs⟩ := List.forall_mem_cons.1 hgs
    have hlater := endsGroup_laterGroups hrest.endsGroup gs
    rw [toList_groupsText_cons, List.append_assoc,
      takeGroups_cons rfl (take?_hex g hlater) (takeGroup?_hex hg hlater),
      takeGroups_laterGroups hrest (Nat.le_of_succ_le_succ hlimit) hgs]

/-! ### Addresses -/

/-- Eight groups are read as the address that they make. -/
theorem parse?_groupsText {gs : List Nat} (hlength : gs.length = 8) (hgs : ∀ g ∈ gs, g < 65536) :
    parse? (groupsText gs) = ofGroups? gs := by
  have hread := takeGroups_groupsText (.inl rfl) (Nat.le_of_eq hlength) hgs
  rw [List.append_nil] at hread
  simp [parse?, hread, hlength]

/-- Groups on both sides of `::` are read as the address that they make with zeros between them. -/
theorem parse?_compressed {left right : List Nat} (hlength : left.length + right.length ≤ 7)
    (hleft : ∀ g ∈ left, g < 65536) (hright : ∀ g ∈ right, g < 65536) :
    parse? (groupsText left ++ "::" ++ groupsText right) =
      ofGroups? (left ++ List.replicate (8 - left.length - right.length) 0 ++ right) := by
  have hhead : takeGroups 8 true
      ((groupsText left).toList ++ ':' :: ':' :: (groupsText right).toList) =
        (left, false, ':' :: ':' :: (groupsText right).toList) :=
    takeGroups_groupsText (.inr ⟨_, rfl⟩) (by omega) hleft
  have htail : takeGroups (7 - left.length) true ((groupsText right).toList ++ []) =
      (right, false, []) :=
    takeGroups_groupsText (.inl rfl) (by omega) hright
  rw [List.append_nil] at htail
  have htext : (groupsText left ++ "::" ++ groupsText right).toList =
      (groupsText left).toList ++ ':' :: ':' :: (groupsText right).toList := by
    simp
  have hne : left.length ≠ 8 := by omega
  simp [parse?, htext, hhead, htail, hne]

/-- An IPv4 address behind `::ffff:` is read as the address that is mapped from it. -/
theorem parse?_mapped (v4 : V4Address) : parse? ("::ffff:" ++ v4.text) =
    ofGroups? (List.replicate 5 0 ++ 65535 :: pairValues v4.octets.toList) := by
  have htake : V4Address.take? (v4.text.toList ++ []) = some (v4, []) :=
    V4Address.take?_text v4 nofun
  rw [List.append_nil] at htake
  have hcolon : EndsGroup (':' :: v4.text.toList) := by
    rintro c ⟨⟩
    rfl
  have htail : takeGroups 7 true ((Numeral.hex 65535).toList ++ ':' :: v4.text.toList) =
      (65535 :: pairValues v4.octets.toList, true, []) := by
    have hpairs : takeGroups 6 false (':' :: v4.text.toList) =
        (pairValues v4.octets.toList, true, []) := by
      simp [takeGroups, takeSeparator?, htake]
    rw [takeGroups_cons rfl (take?_hex _ hcolon) (takeGroup?_hex (by decide) hcolon), hpairs]
  have htext : ("::ffff:" ++ v4.text).toList =
      ':' :: ':' :: ((Numeral.hex 65535).toList ++ ':' :: v4.text.toList) := by
    rw [String.toList_append]
    rfl
  have hlength := length_pairValues v4.octets.toList
  rw [v4.octets.length_toList] at hlength
  simp [parse?, htext, takeGroups_end (.inr ⟨_, rfl⟩), htail, hlength]

/-- The groups of an address that is mapped from an IPv4 address. -/
theorem groups_of_mappedV4? {a : V6Address} {v4 : V4Address} (h : a.mappedV4? = some v4) :
    a.groups = List.replicate 5 0 ++ 65535 :: pairValues v4.octets.toList := by
  unfold mappedV4? at h
  split at h
  · next hprefix =>
    obtain ⟨octets, hoctets, rfl⟩ := Option.map_eq_some_iff.1 h
    have hrest : a.octets.toList.drop 12 = octets.toList := Octets.ofList?_eq_some_iff.1 hoctets
    rw [groups, ← List.take_append_drop 12 a.octets.toList, hprefix, hrest]
    rfl
  · cases h

/-- An address that is written is read as itself. -/
theorem parse?_text (a : V6Address) : parse? a.text = some a := by
  have hgs : ∀ g ∈ a.groups, g < 65536 := fun g hg => lt_of_mem_pairValues hg
  have hlength := a.length_groups
  unfold text
  split
  · next v4 hmapped => rw [parse?_mapped, ← groups_of_mappedV4? hmapped, ofGroups?_groups]
  · obtain ⟨hle, hzeros⟩ := longestZeros_spec a.groups
    dsimp only
    split
    · next htwo =>
      -- what `::` stands for is the run of zeros that was left out
      have hright : (a.groups.drop ((longestZeros a.groups).1 + (longestZeros a.groups).2)).length =
          8 - ((longestZeros a.groups).1 + (longestZeros a.groups).2) := by
        rw [List.length_drop, hlength]
      have hleft :
          (a.groups.take (longestZeros a.groups).1).length = (longestZeros a.groups).1 := by
        rw [List.length_take]
        omega
      have hmiss : 8 - (longestZeros a.groups).1 -
          (8 - ((longestZeros a.groups).1 + (longestZeros a.groups).2)) =
            (longestZeros a.groups).2 := by
        omega
      rw [parse?_compressed (by omega) (fun g hg => hgs g (List.mem_of_mem_take hg))
        fun g hg => hgs g (List.mem_of_mem_drop hg), hleft, hright, hmiss, ← hzeros,
        List.append_assoc, ← List.drop_drop, List.take_append_drop, List.take_append_drop,
        ofGroups?_groups]
    · rw [parse?_groupsText hlength hgs, ofGroups?_groups]

/-- Different addresses have different texts. -/
theorem text_injective {a b : V6Address} (h : a.text = b.text) : a = b := by
  have hread := parse?_text a
  rw [h, parse?_text b] at hread
  exact (Option.some.inj hread).symm

end V6Address

end DhcpRelay
