import Mathlib.Data.FinEnum
import DhcpRelay.V4.DhcpOption

/-!
# Reading, writing and relaying DHCPv4 options

Options that are read are well-formed (`DhcpOption.WellFormed`): their codes are not those of the
octets between and after options, and their data fit the length field. Well-formed options are read
as they were written, whatever follows the end octet (`DhcpOption.parseAll_encodeAll_append`).

A relay keeps of each code the first option (`relayOptions_eq`). So looking up a code finds what it
found before (`find?_relayOptions`), relaying once more changes nothing
(`relayOptions_relayOptions`), and the options take up no more than one option of every code with
the longest data there are (`length_encodeAll_relayOptions_le`).
-/

namespace DhcpRelay.V4

namespace DhcpOption

/-- An option that can be told from pads and from the end octet, and whose length can be written. -/
structure WellFormed (o : DhcpOption) : Prop where
  ne_pad : o.code ≠ padCode
  ne_end : o.code ≠ endCode
  length_le : o.data.length ≤ 255

instance (o : DhcpOption) : Decidable o.WellFormed :=
  decidable_of_iff (o.code ≠ padCode ∧ o.code ≠ endCode ∧ o.data.length ≤ 255)
    ⟨fun ⟨hpad, hend, hlength⟩ => ⟨hpad, hend, hlength⟩, fun h => ⟨h.ne_pad, h.ne_end, h.length_le⟩⟩

/-! ## Reading and writing -/

/-- The end octet ends the reading. -/
theorem parseAll_end (rest : Bytes) : parseAll (endCode :: rest) = [] := by
  unfold parseAll
  exact if_pos rfl

/-- A pad is passed over. -/
theorem parseAll_pad (rest : Bytes) : parseAll (padCode :: rest) = parseAll rest := by
  rw [parseAll.eq_def]
  exact (if_neg (by decide)).trans (if_pos rfl)

section
variable {code length : UInt8} {rest : Bytes}

/-- An option whose data are all there is read, and then what follows it. -/
theorem parseAll_of_split? (hend : code ≠ endCode) (hpad : code ≠ padCode) {data rest' : Bytes}
    (hsplit : Bytes.split? length.toNat rest = some (data, rest')) :
    parseAll (code :: length :: rest) = ⟨code, data⟩ :: parseAll rest' := by
  rw [parseAll, if_neg hend, if_neg hpad]
  split
  next heq => cases hsplit.symm.trans heq
  next heq =>
    obtain ⟨rfl, rfl⟩ := Prod.mk.inj (Option.some.inj (hsplit.symm.trans heq))
    rfl

/-- An option that is cut short ends the reading. -/
theorem parseAll_of_split?_none (hend : code ≠ endCode) (hpad : code ≠ padCode)
    (hsplit : Bytes.split? length.toNat rest = none) : parseAll (code :: length :: rest) = [] := by
  rw [parseAll, if_neg hend, if_neg hpad]
  split
  next => rfl
  next heq => cases hsplit.symm.trans heq

end

/-- Options that are read are well-formed. -/
theorem wellFormed_of_mem_parseAll {bs : Bytes} {o : DhcpOption} (ho : o ∈ parseAll bs) :
    o.WellFormed := by
  induction bs using parseAll.induct with
  | case1 => simp [parseAll] at ho
  | case2 rest => simp [parseAll_end] at ho
  | case3 rest _ ih => exact ih (parseAll_pad rest ▸ ho)
  | case4 code hend hpad => simp [parseAll, hend, hpad] at ho
  | case5 code hend hpad length rest hsplit =>
    simp [parseAll_of_split?_none hend hpad hsplit] at ho
  | case6 code hend hpad length rest data rest' hsplit ih =>
    rw [parseAll_of_split? hend hpad hsplit] at ho
    obtain rfl | ho := List.mem_cons.1 ho
    · refine ⟨hpad, hend, ?_⟩
      have hlt := length.toNat_lt
      have hlength := (Bytes.split?_eq_some_iff.1 hsplit).2
      dsimp only
      omega
    · exact ih ho

/-- The length octet of a well-formed option is the length of its data. -/
theorem WellFormed.toNat_length {o : DhcpOption} (h : o.WellFormed) :
    (UInt8.ofNat o.data.length).toNat = o.data.length := by
  have hle := h.length_le
  rw [UInt8.toNat_ofNat']
  omega

/-- A well-formed option that was written is read, and then what follows it. -/
theorem parseAll_encode_append {o : DhcpOption} (h : o.WellFormed) (rest : Bytes) :
    parseAll (o.encode ++ rest) = o :: parseAll rest := by
  have hsplit : Bytes.split? (UInt8.ofNat o.data.length).toNat (o.data ++ rest) =
      some (o.data, rest) :=
    Bytes.split?_eq_some_iff.2 ⟨rfl, h.toNat_length.symm⟩
  rw [encode, List.cons_append, List.cons_append, parseAll_of_split? h.ne_end h.ne_pad hsplit]

/-- Well-formed options are read as they were written. What follows the end octet does not
matter. -/
theorem parseAll_encodeAll_append {options : List DhcpOption} (h : ∀ o ∈ options, o.WellFormed)
    (rest : Bytes) : parseAll (encodeAll options ++ rest) = options := by
  induction options with
  | nil => exact parseAll_end rest
  | cons o options ih =>
    rw [encodeAll, List.flatMap_cons, List.append_assoc, List.append_assoc,
      parseAll_encode_append (h o List.mem_cons_self), ← List.append_assoc, ← encodeAll,
      ih fun p hp => h p (List.mem_cons_of_mem o hp)]

end DhcpOption

/-! ## Relaying -/

section
variable {seen : List UInt8} {options : List DhcpOption} {o : DhcpOption}

/-- What stands for the first time is what is left if options with codes that were seen are passed
over and of the others later ones with the same code are erased. -/
theorem firstOfEachCode_eq (seen : List UInt8) (options : List DhcpOption) :
    firstOfEachCode seen options =
      (options.filter (·.code ∉ seen)).eraseDupsBy fun a b => a.code == b.code := by
  induction options generalizing seen with
  | nil => rfl
  | cons o options ih =>
    by_cases hseen : o.code ∈ seen
    · rw [firstOfEachCode, if_pos hseen, ih, List.filter_cons_of_neg (by simpa using hseen)]
    · rw [firstOfEachCode, if_neg hseen, ih, List.filter_cons_of_pos (by simpa using hseen),
        List.eraseDupsBy_cons, List.filter_filter]
      congr 3
      funext p
      simp [List.mem_cons, not_or, Bool.decide_and]

/-- Of the options that stand for the first time none has a code that was seen. -/
theorem mem_firstOfEachCode (h : o ∈ firstOfEachCode seen options) :
    o ∈ options ∧ o.code ∉ seen := by
  induction options generalizing seen with
  | nil => cases h
  | cons p options ih =>
    unfold firstOfEachCode at h
    split at h
    · exact (ih h).imp_left (List.mem_cons_of_mem p)
    · next hseen =>
      obtain rfl | h := List.mem_cons.1 h
      · exact ⟨List.mem_cons_self, hseen⟩
      · exact ⟨List.mem_cons_of_mem p (ih h).1, fun hs => (ih h).2 (List.mem_cons_of_mem _ hs)⟩

/-- The codes of what stands for the first time are distinct. -/
theorem nodup_firstOfEachCode (seen : List UInt8) (options : List DhcpOption) :
    ((firstOfEachCode seen options).map (·.code)).Nodup := by
  induction options generalizing seen with
  | nil => exact List.nodup_nil
  | cons o options ih =>
    unfold firstOfEachCode
    split
    · exact ih seen
    · refine List.nodup_cons.2 ⟨fun hmem => ?_, ih (o.code :: seen)⟩
      obtain ⟨p, hp, hcode⟩ := List.mem_map.1 hmem
      exact (mem_firstOfEachCode hp).2 (hcode ▸ List.mem_cons_self)

/-- Looking up a code that was not seen finds what it found before. -/
theorem find?_firstOfEachCode {code : UInt8} (h : code ∉ seen) :
    (firstOfEachCode seen options).find? (·.code == code) = options.find? (·.code == code) := by
  induction options generalizing seen with
  | nil => rfl
  | cons o options ih =>
    unfold firstOfEachCode
    by_cases hcode : o.code = code
    · rw [if_neg (hcode ▸ h), List.find?_cons_of_pos (by simpa using hcode),
        List.find?_cons_of_pos (by simpa using hcode)]
    · rw [List.find?_cons_of_neg (by simpa using hcode)]
      split
      · exact ih h
      · rw [List.find?_cons_of_neg (by simpa using hcode)]
        exact ih fun hmem => (List.mem_cons.1 hmem).elim (fun he => hcode he.symm) h

/-- Options that all stand for the first time are kept. -/
theorem firstOfEachCode_eq_self (hseen : ∀ o ∈ options, o.code ∉ seen)
    (hnodup : (options.map (·.code)).Nodup) : firstOfEachCode seen options = options := by
  induction options generalizing seen with
  | nil => rfl
  | cons o options ih =>
    obtain ⟨hfirst, hrest⟩ := List.nodup_cons.1 hnodup
    rw [firstOfEachCode, if_neg (hseen o List.mem_cons_self),
      ih (fun p hp hmem => ?_) hrest]
    obtain he | hmem := List.mem_cons.1 hmem
    · exact hfirst (List.mem_map.2 ⟨p, hp, he⟩)
    · exact hseen p (List.mem_cons_of_mem o hp) hmem

variable {type : UInt8}

/-- A relayed message has the message type first, then the received options in their order without
the message type and without those whose code stood before. -/
theorem relayOptions_eq (type : UInt8) (options : List DhcpOption) : relayOptions type options =
    .messageType type :: (options.filter (·.code ≠ DhcpOption.messageTypeCode)).eraseDupsBy
      fun a b => a.code == b.code := by
  rw [relayOptions, firstOfEachCode_eq]
  simp

/-- Options of a relayed message are the message type and options that were received with another
code. -/
theorem mem_relayOptions (h : o ∈ relayOptions type options) :
    o = .messageType type ∨ o ∈ options ∧ o.code ≠ DhcpOption.messageTypeCode :=
  (List.mem_cons.1 h).imp_right fun ho => (mem_firstOfEachCode ho).imp_right fun hcode he =>
    hcode (he ▸ List.mem_singleton_self _)

/-- Well-formed options stay so when they are relayed. -/
theorem wellFormed_relayOptions (h : ∀ o ∈ options, o.WellFormed) :
    ∀ o ∈ relayOptions type options, o.WellFormed := by
  intro o ho
  obtain rfl | ⟨ho, -⟩ := mem_relayOptions ho
  · exact ⟨by simp [DhcpOption.messageType, DhcpOption.messageTypeCode, DhcpOption.padCode],
      by simp [DhcpOption.messageType, DhcpOption.messageTypeCode, DhcpOption.endCode],
      by simp [DhcpOption.messageType]⟩
  · exact h o ho

/-- Looking up another code finds what it finds in the received options. -/
theorem find?_relayOptions {code : UInt8} (h : code ≠ DhcpOption.messageTypeCode) :
    (relayOptions type options).find? (·.code == code) = options.find? (·.code == code) := by
  rw [relayOptions, List.find?_cons_of_neg (by simpa [DhcpOption.messageType] using h.symm)]
  exact find?_firstOfEachCode (by simpa using h)

/-- Relaying options that were relayed gives them the other message type and changes nothing
else. -/
theorem relayOptions_relayOptions (type type' : UInt8) (options : List DhcpOption) :
    relayOptions type (relayOptions type' options) = relayOptions type options := by
  have hkept : firstOfEachCode [DhcpOption.messageTypeCode]
      (firstOfEachCode [DhcpOption.messageTypeCode] options) =
      firstOfEachCode [DhcpOption.messageTypeCode] options :=
    firstOfEachCode_eq_self (fun o ho => (mem_firstOfEachCode ho).2) (nodup_firstOfEachCode _ _)
  have htype : (DhcpOption.messageType type').code ∈ [DhcpOption.messageTypeCode] :=
    List.mem_singleton_self _
  rw [relayOptions, relayOptions, firstOfEachCode, if_pos htype, hkept, relayOptions]

/-! ## Sizes -/

/-- A well-formed option takes up no more than its code, its length and the longest data there
are. -/
theorem DhcpOption.WellFormed.length_encode_le (h : o.WellFormed) : o.encode.length ≤ 257 := by
  have hle := h.length_le
  simp only [DhcpOption.encode, List.length_cons]
  omega

/-- Well-formed options take up no more than so many options with the longest data. -/
theorem length_flatMap_encode_le (h : ∀ o ∈ options, o.WellFormed) :
    (options.flatMap DhcpOption.encode).length ≤ options.length * 257 := by
  induction options with
  | nil => exact Nat.le_refl _
  | cons o options ih =>
    have hfirst := (h o List.mem_cons_self).length_encode_le
    have hrest := ih fun p hp => h p (List.mem_cons_of_mem o hp)
    rw [List.flatMap_cons, List.length_append, List.length_cons]
    omega

/-- There are no more than 253 codes beside those of pads, of the end octet and of the message
type. -/
theorem length_firstOfEachCode_le (h : ∀ o ∈ options, o.WellFormed) :
    (firstOfEachCode [DhcpOption.messageTypeCode] options).length ≤ 253 := by
  have hnodup : ([DhcpOption.padCode, DhcpOption.endCode, DhcpOption.messageTypeCode] ++
      (firstOfEachCode [DhcpOption.messageTypeCode] options).map (·.code)).Nodup := by
    refine List.nodup_append.2 ⟨by decide, nodup_firstOfEachCode _ _, fun c hc d hd he => ?_⟩
    obtain ⟨o, ho, rfl⟩ := List.mem_map.1 hd
    obtain ⟨hmem, hcode⟩ := mem_firstOfEachCode ho
    have hwell := h o hmem
    simp only [List.mem_cons, List.not_mem_nil, or_false] at hc
    obtain rfl | rfl | rfl := hc
    · exact hwell.ne_pad he.symm
    · exact hwell.ne_end he.symm
    · exact hcode (he ▸ List.mem_singleton_self _)
  have hcard := hnodup.length_le_card.trans_eq (FinEnum.card_eq_fintypeCard (α := UInt8)).symm
  have hoctets : FinEnum.card UInt8 = 256 := rfl
  simp only [List.length_append, List.length_map, List.length_cons, List.length_nil] at hcard
  omega

/-- The options of a relayed message and the end octet take up no more than the message type, 253
options with the longest data there are, and one octet. -/
theorem length_encodeAll_relayOptions_le (type : UInt8) (h : ∀ o ∈ options, o.WellFormed) :
    (DhcpOption.encodeAll (relayOptions type options)).length ≤ 3 + 253 * 257 + 1 := by
  have hcount := length_firstOfEachCode_le h
  have hsum := length_flatMap_encode_le fun o ho =>
    h o (@mem_firstOfEachCode [DhcpOption.messageTypeCode] _ _ ho).1
  have hlength : (DhcpOption.encodeAll (relayOptions type options)).length =
      3 + ((firstOfEachCode [DhcpOption.messageTypeCode] options).flatMap
        DhcpOption.encode).length + 1 := by
    simp [DhcpOption.encodeAll, relayOptions, DhcpOption.encode, DhcpOption.messageType]
    omega
  omega

end

end DhcpRelay.V4
