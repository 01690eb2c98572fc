import DhcpRelay.Proofs.Octets
import DhcpRelay.Proofs.V4.DhcpOption

/-!
# Which octet strings hold which options

An octet string holds options if these stand in it one after another, each written as its code, its
length and its data, with any number of pads before, between and after them, and if nothing that
could be read stands behind (`DhcpOption.Holds`): what is left there is empty, begins with the end
octet, or is an option that is cut short (`DhcpOption.Stops`).

Every octet string holds exactly one list of well-formed options, and that list is what is read from
it (`DhcpOption.parseAll_eq_iff`). So reading invents, skips, reorders and alters nothing. What is
read, once written again, is read as the same options; pads and what stands behind the options are
gone.
-/

namespace DhcpRelay.V4.DhcpOption

/-! ## Layouts -/

/-- Options in octets, each behind so many pads. -/
def layOut (spaced : List (Nat × DhcpOption)) : Bytes :=
  spaced.flatMap fun s => List.replicate s.1 padCode ++ s.2.encode

@[simp] theorem layOut_cons (s : Nat × DhcpOption) (spaced : List (Nat × DhcpOption)) :
    layOut (s :: spaced) = List.replicate s.1 padCode ++ (s.2.encode ++ layOut spaced) := by
  rw [layOut, List.flatMap_cons, List.append_assoc, ← layOut]

/-- Nothing can be read from the octet string: it is empty, it begins with the end octet, or it is
an option that is cut short, of which there is the code alone, or less data than its length says. -/
inductive Stops : Bytes → Prop where
  | empty : Stops []
  | ended (rest : Bytes) : Stops (endCode :: rest)
  | codeAlone {code : UInt8} (hend : code ≠ endCode) (hpad : code ≠ padCode) : Stops [code]
  | short {code length : UInt8} {data : Bytes} (hend : code ≠ endCode) (hpad : code ≠ padCode)
    (hshort : data.length < length.toNat) : Stops (code :: length :: data)

/-- The options stand in the octet string one after another, with pads before, between and after
them, and nothing can be read behind them. -/
def Holds (bs : Bytes) (options : List DhcpOption) : Prop :=
  ∃ (spaced : List (Nat × DhcpOption)) (pads : Nat) (rest : Bytes),
    spaced.map (·.2) = options ∧ bs = layOut spaced ++ List.replicate pads padCode ++ rest ∧
      Stops rest

section
variable {bs : Bytes} {o : DhcpOption} {options : List DhcpOption}

/-- A string from which nothing can be read holds no options. -/
theorem Stops.holds (h : Stops bs) : Holds bs [] := ⟨[], 0, bs, rfl, rfl, h⟩

/-- One more pad in front changes nothing: it stands before the first option, or after the last one
if there is none. -/
theorem Holds.pad (h : Holds bs options) : Holds (padCode :: bs) options := by
  obtain ⟨spaced, pads, rest, hoptions, rfl, hrest⟩ := h
  cases spaced with
  | nil => exact ⟨[], pads + 1, rest, hoptions, rfl, hrest⟩
  | cons s spaced => exact ⟨(s.1 + 1, s.2) :: spaced, pads, rest, hoptions, rfl, hrest⟩

/-- One more option in front is the first one. -/
theorem Holds.option (h : Holds bs options) (o : DhcpOption) :
    Holds (o.encode ++ bs) (o :: options) := by
  obtain ⟨spaced, pads, rest, rfl, rfl, hrest⟩ := h
  refine ⟨(0, o) :: spaced, pads, rest, rfl, ?_, hrest⟩
  simp

/-- An option is well-formed if its code is none of the two that are not codes of options, and its
data are no longer than an octet can say. -/
theorem wellFormed_iff :
    o.WellFormed ↔ o.code ≠ 0 ∧ o.code ≠ 255 ∧ o.data.length ≤ 255 :=
  ⟨fun h => ⟨h.ne_pad, h.ne_end, h.length_le⟩, fun ⟨hpad, hend, hle⟩ => ⟨hpad, hend, hle⟩⟩

/-! ## Reading a layout -/

/-- Pads are passed over. -/
theorem parseAll_pads_append (n : Nat) (bs : Bytes) :
    parseAll (List.replicate n padCode ++ bs) = parseAll bs := by
  induction n with
  | zero => rfl
  | succ n ih => rw [List.replicate_succ, List.cons_append, parseAll_pad, ih]

/-- Options that are laid out are read, and then what follows them. -/
theorem parseAll_layOut_append {spaced : List (Nat × DhcpOption)}
    (h : ∀ o ∈ spaced.map (·.2), o.WellFormed) (bs : Bytes) :
    parseAll (layOut spaced ++ bs) = spaced.map (·.2) ++ parseAll bs := by
  induction spaced with
  | nil => rfl
  | cons s spaced ih =>
    obtain ⟨hs, hspaced⟩ := List.forall_mem_cons.1 h
    rw [layOut_cons, List.append_assoc, List.append_assoc, parseAll_pads_append,
      parseAll_encode_append hs, ih hspaced, List.map_cons, List.cons_append]

/-- Reading ends where nothing can be read. -/
theorem Stops.parseAll_eq (h : Stops bs) : parseAll bs = [] := by
  cases h with
  | empty => rw [parseAll]
  | ended rest => exact parseAll_end rest
  | codeAlone hend hpad => rw [parseAll, if_neg hend, if_neg hpad]
  | short hend hpad hshort =>
    exact parseAll_of_split?_none hend hpad (Bytes.split?_eq_none_iff.2 hshort)

/-- Well-formed options are read from every string that holds them. -/
theorem Holds.parseAll_eq (h : Holds bs options) (hwell : ∀ o ∈ options, o.WellFormed) :
    parseAll bs = options := by
  obtain ⟨spaced, pads, rest, rfl, rfl, hrest⟩ := h
  rw [List.append_assoc, parseAll_layOut_append hwell, parseAll_pads_append, hrest.parseAll_eq,
    List.append_nil]

/-- The string holds the options that are read from it. -/
theorem holds_parseAll (bs : Bytes) : Holds bs (parseAll bs) := by
  induction bs using parseAll.induct with
  | case1 =>
    rw [parseAll]
    exact Stops.empty.holds
  | case2 rest =>
    rw [parseAll_end]
    exact (Stops.ended rest).holds
  | case3 rest _ ih =>
    rw [parseAll_pad]
    exact ih.pad
  | case4 code hend hpad =>
    have hstops : Stops [code] := .codeAlone hend hpad
    rw [hstops.parseAll_eq]
    exact hstops.holds
  | case5 code hend hpad length rest hsplit =>
    have hstops : Stops (code :: length :: rest) :=
      .short hend hpad (Bytes.split?_eq_none_iff.1 hsplit)
    rw [hstops.parseAll_eq]
    exact hstops.holds
  | case6 code hend hpad length rest data rest' hsplit ih =>
    obtain ⟨rfl, hlength⟩ := Bytes.split?_eq_some_iff.1 hsplit
    have hencode : code :: length :: (data ++ rest') = encode ⟨code, data⟩ ++ rest' := by
      rw [encode, hlength, UInt8.ofNat_toNat, List.cons_append, List.cons_append]
    rw [parseAll_of_split? hend hpad hsplit, hencode]
    exact ih.option ⟨code, data⟩

/-- A string holds exactly one list of well-formed options, the one that is read from it. -/
theorem parseAll_eq_iff :
    parseAll bs = options ↔ (∀ o ∈ options, o.WellFormed) ∧ Holds bs options := by
  constructor
  · rintro rfl
    exact ⟨fun o ho => wellFormed_of_mem_parseAll ho, holds_parseAll bs⟩
  · rintro ⟨hwell, hholds⟩
    exact hholds.parseAll_eq hwell

/-- Pads and what stands behind the end octet are no options. -/
example : parseAll [0, 0, 53, 1, 1, 0, 54, 4, 10, 0, 0, 2, 255, 12, 2, 104, 105] =
    [⟨53, [1]⟩, ⟨54, [10, 0, 0, 2]⟩] := by
  cbv

end

/-- Reading inverts writing, and it reads exactly what is there. Options whose codes are not those
of pads and of the end octet and whose data have at most 255 octets are read as they were written,
whatever follows. From any octet string those options are read, and no other list of such options,
that stand in it one after another with nothing but pads before, between and after them, up to its
end, to the end octet or to an option that is cut short. Reading, writing and reading once more
gives the same options. -/
theorem parseAll_exact :
    (∀ (options : List DhcpOption) (rest : Bytes),
      (∀ o ∈ options, o.code ≠ 0 ∧ o.code ≠ 255 ∧ o.data.length ≤ 255) →
      parseAll (encodeAll options ++ rest) = options) ∧
    (∀ (bs : Bytes) (options : List DhcpOption), parseAll bs = options ↔
      (∀ o ∈ options, o.code ≠ 0 ∧ o.code ≠ 255 ∧ o.data.length ≤ 255) ∧ Holds bs options) ∧
    ∀ bs : Bytes, parseAll (encodeAll (parseAll bs)) = parseAll bs := by
  refine ⟨?_, ?_, ?_⟩
  · intro options rest h
    exact parseAll_encodeAll_append (fun o ho => wellFormed_iff.2 (h o ho)) rest
  · intro bs options
    rw [parseAll_eq_iff]
    exact and_congr_left' (forall₂_congr fun o _ => wellFormed_iff)
  · intro bs
    have hread : ∀ o ∈ parseAll bs, o.WellFormed := fun o ho => wellFormed_of_mem_parseAll ho
    have hagain := parseAll_encodeAll_append hread []
    rwa [List.append_nil] at hagain

/-- The octets of pads and of the end octet are data within options: such options are read as they
were written, with one of no data between them, and not what follows. -/
theorem parseAll_markers_in_data :
    let options : List DhcpOption := [⟨61, [0, 255]⟩, ⟨80, []⟩, ⟨12, [255, 0, 0]⟩]
    parseAll (encodeAll options ++ [53, 1, 1]) = options ∧
      Holds (encodeAll options ++ [53, 1, 1]) options := by
  intro options
  have hread := parseAll_exact.1 options [53, 1, 1] (by decide)
  exact ⟨hread, ((parseAll_exact.2.1 _ _).1 hread).2⟩

end DhcpRelay.V4.DhcpOption
