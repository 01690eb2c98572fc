import DhcpRelay.Proofs.Octets
import DhcpRelay.Proofs.V6.Message

/-!
# Which octet strings hold which options and relay messages

DHCPv6 knows no pads and no end octet. An octet string holds options if these stand in it one after
another from its beginning, and if what is left behind them is the beginning of an option that is
cut short (`DhcpOption.Stops`). Every octet string holds exactly one list of options whose data fit
the length field, and that list is what is read from it (`DhcpOption.parseAll_eq_iff`). A relay
message is its header and, behind it, its options; every string that has the header holds one
(`RelayMessage.parse_eq_ok_iff`).

So writing again what was read gives back what it was read from, up to the option that is cut short;
and what was written is read as it was if its data fit, since a written length is then the true one,
however the data look: they are taken by their length and not looked into.
-/

namespace DhcpRelay.V6

namespace DhcpOption

/-! ## Options -/

/-- Nothing can be read from the octet string: it has not even the code and the length of an option,
or less data than the length says. -/
inductive Stops : Bytes → Prop where
  | noHeader {bs : Bytes} (h : bs.length < 4) : Stops bs
  | short {code₁ code₀ length₁ length₀ : UInt8} {data : Bytes}
    (h : data.length < length₁.toNat * 256 + length₀.toNat) :
    Stops (code₁ :: code₀ :: length₁ :: length₀ :: data)

/-- The options stand in the octet string one after another from its beginning, their data fit the
length field, and nothing can be read behind them. -/
def Holds (bs : Bytes) (options : List DhcpOption) : Prop :=
  (∀ o ∈ options, o.data.length ≤ 65535) ∧ ∃ rest, bs = encodeAll options ++ rest ∧ Stops rest

section
variable {bs : Bytes} {options : List DhcpOption}

/-- A string from which nothing can be read holds no options. -/
theorem Stops.holds (h : Stops bs) : Holds bs [] := ⟨by simp, bs, rfl, h⟩

/-- One more option in front, with data that fit, is the first one. -/
theorem Holds.option (h : Holds bs options) {o : DhcpOption} (ho : o.data.length ≤ 65535) :
    Holds (o.encode ++ bs) (o :: options) := by
  obtain ⟨hfits, rest, rfl, hstops⟩ := h
  refine ⟨List.forall_mem_cons.2 ⟨ho, hfits⟩, rest, ?_, hstops⟩
  rw [encodeAll, encodeAll, List.flatMap_cons, List.append_assoc]

/-- Reading ends where nothing can be read. -/
theorem Stops.parseAll_eq (h : Stops bs) : parseAll bs = [] := by
  cases h with
  | noHeader h =>
    match bs, h with
    | [], _ | [_], _ | [_, _], _ | [_, _, _], _ => simp [parseAll]
  | short h =>
    rw [parseAll]
    split
    next => rfl
    next heq => simp [Bytes.split?_eq_none_iff.2 h] at heq

/-- The options that a string holds are read from it. -/
theorem Holds.parseAll_eq (h : Holds bs options) : parseAll bs = options := by
  obtain ⟨hfits, rest, rfl, hstops⟩ := h
  rw [parseAll_encodeAll_append fun o ho => Nat.lt_succ_of_le (hfits o ho), hstops.parseAll_eq,
    List.append_nil]

/-- Two octets spell no more than 65535. -/
theorem toNat_two_lt (b₁ b₀ : UInt8) : b₁.toNat * 256 + b₀.toNat < 65536 := by
  have h₁ := b₁.toNat_lt
  have h₀ := b₀.toNat_lt
  omega

/-- An option of which all is there is written as it stands there. -/
theorem encode_append_of_length_eq {length₁ length₀ : UInt8} {data : Bytes}
    (h : data.length = length₁.toNat * 256 + length₀.toNat) (code₁ code₀ : UInt8) (rest : Bytes) :
    encode ⟨UInt16.ofNat (code₁.toNat * 256 + code₀.toNat), data⟩ ++ rest =
      code₁ :: code₀ :: length₁ :: length₀ :: (data ++ rest) := by
  rw [encode, UInt16.toNat_ofNat_of_lt' (toNat_two_lt code₁ code₀), h, Octets.digitsOf_two,
    Octets.digitsOf_two]
  rfl

/-- The string holds the options that are read from it. -/
theorem holds_parseAll (bs : Bytes) : Holds bs (parseAll bs) := by
  induction bs using parseAll.induct with
  | case1 code₁ code₀ length₁ length₀ rest hsplit =>
    have hstops : Stops (code₁ :: code₀ :: length₁ :: length₀ :: rest) :=
      .short (Bytes.split?_eq_none_iff.1 hsplit)
    rw [hstops.parseAll_eq]
    exact hstops.holds
  | case2 code₁ code₀ length₁ length₀ rest data rest' hsplit ih =>
    obtain ⟨rfl, hlength⟩ := Bytes.split?_eq_some_iff.1 hsplit
    have hfits : data.length < 65536 := hlength ▸ toNat_two_lt length₁ length₀
    rw [← encode_append_of_length_eq hlength code₁ code₀ rest', parseAll_encode_append hfits]
    exact ih.option (Nat.le_of_lt_succ hfits)
  | case3 bs hshort =>
    have hstops : Stops bs := by
      refine .noHeader ?_
      match bs with
      | [] | [_] | [_, _] | [_, _, _] => simp
      | code₁ :: code₀ :: length₁ :: length₀ :: rest => exact (hshort _ _ _ _ _ rfl).elim
    rw [hstops.parseAll_eq]
    exact hstops.holds

/-- A string holds exactly one list of options, the one that is read from it. -/
theorem parseAll_eq_iff : parseAll bs = options ↔ Holds bs options :=
  ⟨fun h => h ▸ holds_parseAll bs, Holds.parseAll_eq⟩

/-- Options are read as they were written exactly if the data of each have at most 65535 octets. -/
theorem parseAll_encodeAll_eq_iff :
    parseAll (encodeAll options) = options ↔ ∀ o ∈ options, o.data.length ≤ 65535 := by
  constructor
  · intro h
    exact (parseAll_eq_iff.1 h).1
  · intro h
    exact parseAll_encodeAll fun o ho => Nat.lt_succ_of_le (h o ho)

/-- An option takes at least as many octets as it has data. -/
theorem length_data_le {o : DhcpOption} (h : o ∈ options) :
    o.data.length ≤ (encodeAll options).length := by
  have hinside : o.encode <:+: encodeAll options :=
    List.infix_of_mem_flatten (List.mem_map_of_mem h)
  have hdata : o.data <:+ o.encode := List.suffix_append _ _
  exact (hdata.isInfix.trans hinside).length_le

/-! ## The first option of a code -/

/-- The option is the first of its code. -/
def IsFirst (o : DhcpOption) (options : List DhcpOption) : Prop :=
  ∃ before after, options = before ++ o :: after ∧ ∀ p ∈ before, p.code ≠ o.code

theorem IsFirst.mem {o : DhcpOption} (h : o.IsFirst options) : o ∈ options := by
  obtain ⟨before, after, rfl, -⟩ := h
  exact List.mem_append_right before List.mem_cons_self

/-- The option that is found for a code is the first of that code. -/
theorem find?_eq_some_iff {code : UInt16} {o : DhcpOption} :
    find? options code = some o ↔ o.code = code ∧ o.IsFirst options := by
  simp only [find?, List.find?_eq_some_iff_append, beq_iff_eq, Bool.not_eq_true',
    beq_eq_false_iff_ne, IsFirst]
  constructor
  · rintro ⟨rfl, hfirst⟩
    exact ⟨rfl, hfirst⟩
  · rintro ⟨rfl, hfirst⟩
    exact ⟨rfl, hfirst⟩

/-- No option is found for a code that none has. -/
theorem find?_eq_none_iff {code : UInt16} :
    find? options code = none ↔ ∀ o ∈ options, o.code ≠ code := by
  simp [find?]

/-- Options that come later do not matter. -/
theorem IsFirst.append {o : DhcpOption} (h : o.IsFirst options) (more : List DhcpOption) :
    o.IsFirst (options ++ more) := by
  obtain ⟨before, after, rfl, hbefore⟩ := h
  exact ⟨before, after ++ more, by simp, hbefore⟩

end

end DhcpOption

namespace RelayMessage

/-! ## Relay messages -/

section
variable {bs : Bytes} {m : RelayMessage}

/-- Reading a relay message fails exactly if its header does not fit. -/
theorem parse_eq_error_iff {e : ParseError} :
    parse bs = .error e ↔ bs.length < 34 ∧ e = .tooShort bs.length 34 := by
  unfold parse
  split
  · next hshort =>
    simp only [Except.error.injEq]
    exact ⟨fun h => ⟨hshort, h.symm⟩, fun h => h.2.symm⟩
  · next hlong =>
    simp only [reduceCtorEq, false_iff, not_and]
    exact fun hshort => (hlong hshort).elim

/-- A string holds a relay message exactly if it is the header of the message and behind it holds
the options of the message. -/
theorem parse_eq_ok_iff : parse bs = .ok m ↔ ∃ body, bs = m.type :: m.hopCount ::
    (m.linkAddress.octets.toList ++ (m.peerAddress.octets.toList ++ body)) ∧
      DhcpOption.Holds body m.options := by
  constructor
  · intro h
    unfold parse at h
    split at h
    · cases h
    · next hlong =>
      have hlong : 34 ≤ bs.length := by simpa [relayHeaderSize] using hlong
      obtain rfl := Except.ok.inj h
      refine ⟨bs.drop 34, ?_, DhcpOption.holds_parseAll _⟩
      match bs, hlong with
      | type :: hopCount :: rest, _ =>
        have hrest : rest = rest.take 16 ++ (Bytes.field rest 16 16 ++ rest.drop 32) := by
          rw [← List.append_assoc, Bytes.take_append_field, List.take_append_drop]
        exact congrArg (type :: hopCount :: ·) hrest
  · rintro ⟨body, rfl, hholds⟩
    rw [parse_header, hholds.parseAll_eq]

/-- Writing again what was read gives back what it was read from, up to an option that is cut
short. -/
theorem encode_append_of_parse (h : parse bs = .ok m) :
    ∃ rest, bs = m.encode ++ rest ∧ DhcpOption.Stops rest := by
  obtain ⟨body, hbs, -, rest, rfl, hstops⟩ := parse_eq_ok_iff.1 h
  refine ⟨rest, ?_, hstops⟩
  rw [hbs]
  simp [encode]

/-- Relay messages are read as they were written exactly if the data of each option have at most
65535 octets. -/
theorem parse_encode_eq_ok_iff :
    parse m.encode = .ok m ↔ ∀ o ∈ m.options, o.data.length ≤ 65535 := by
  rw [parse_encode_eq, Except.ok.injEq, ← DhcpOption.parseAll_encodeAll_eq_iff]
  constructor
  · intro h
    exact congrArg RelayMessage.options h
  · intro h
    rw [h]

/-- The message inside is what the first option of its code holds. -/
theorem relayMessage_eq_ok_iff {inner : Bytes} : m.relayMessage = .ok inner ↔
    ∃ before after, m.options = before ++ ⟨DhcpOption.relayMessageCode, inner⟩ :: after ∧
      ∀ o ∈ before, o.code ≠ DhcpOption.relayMessageCode := by
  have hfind : m.relayMessage = .ok inner ↔ DhcpOption.find? m.options DhcpOption.relayMessageCode =
      some ⟨DhcpOption.relayMessageCode, inner⟩ := by
    unfold relayMessage
    cases hfound : DhcpOption.find? m.options DhcpOption.relayMessageCode with
    | none => simp
    | some o =>
      obtain ⟨code, data⟩ := o
      obtain ⟨rfl, -⟩ := DhcpOption.find?_eq_some_iff.1 hfound
      simp
  rw [hfind, DhcpOption.find?_eq_some_iff]
  exact and_iff_right rfl

/-- The message inside stands as it is in the octets that the message around it is read from. -/
theorem infix_of_relayMessage {inner : Bytes} (h : parse bs = .ok m)
    (hinner : m.relayMessage = .ok inner) : inner <:+: bs := by
  obtain ⟨rest, rfl, -⟩ := encode_append_of_parse h
  obtain ⟨before, after, hoptions, -⟩ := relayMessage_eq_ok_iff.1 hinner
  have hmem : ⟨DhcpOption.relayMessageCode, inner⟩ ∈ m.options := by
    rw [hoptions]
    exact List.mem_append_right _ List.mem_cons_self
  -- It ends its option, which is one of the options, and these end the written message.
  have hoption : inner <:+ DhcpOption.encode ⟨DhcpOption.relayMessageCode, inner⟩ :=
    List.suffix_append _ _
  have hall : DhcpOption.encode ⟨DhcpOption.relayMessageCode, inner⟩ <:+:
      DhcpOption.encodeAll m.options :=
    List.infix_of_mem_flatten (List.mem_map_of_mem hmem)
  have hmessage : DhcpOption.encodeAll m.options <:+ m.encode := List.suffix_append _ _
  exact (hoption.isInfix.trans hall).trans
    (hmessage.isInfix.trans (List.prefix_append _ rest).isInfix)

end

end RelayMessage

/-! ## Both formats -/

/-- Reading and writing are exact. Options are read as they were written if, and only if, the data
of each have at most 65535 octets. Of any octet string, the options that are read from it, written
again, are its beginning, and what is left has fewer than four octets or says more data than there
are. Relay messages are read as they were written under the same condition on their options; of a
string with fewer than 34 octets none is read, and of every other one a message that, written again,
is the string's beginning. From the message that a relay sends on around a payload of at most 65535
octets its hop count, its two addresses and one option are read, and inside it the payload. -/
theorem encoding_exact :
    (∀ options : List DhcpOption,
      DhcpOption.parseAll (DhcpOption.encodeAll options) = options ↔
        ∀ o ∈ options, o.data.length ≤ 65535) ∧
    (∀ bs : Bytes, ∃ rest, bs = DhcpOption.encodeAll (DhcpOption.parseAll bs) ++ rest ∧
      (rest.length < 4 ∨ ∃ code₁ code₀ length₁ length₀ data,
        rest = code₁ :: code₀ :: length₁ :: length₀ :: data ∧
          data.length < length₁.toNat * 256 + length₀.toNat)) ∧
    ((∀ m : RelayMessage, RelayMessage.parse m.encode = .ok m ↔
        ∀ o ∈ m.options, o.data.length ≤ 65535) ∧
      (∀ (bs : Bytes) (e : ParseError), RelayMessage.parse bs = .error e ↔
        bs.length < 34 ∧ e = .tooShort bs.length 34) ∧
      ∀ bs : Bytes, 34 ≤ bs.length → ∃ m, RelayMessage.parse bs = .ok m ∧ m.encode <+: bs) ∧
    ∀ (hopCount : UInt8) (link peer : V6Address) (payload : Bytes), payload.length ≤ 65535 →
      ∃ m, RelayMessage.parse (RelayMessage.forward hopCount link peer payload).encode = .ok m ∧
        m.hopCount = hopCount ∧ m.linkAddress = link ∧ m.peerAddress = peer ∧
        (∃ o, m.options = [o]) ∧ m.relayMessage = .ok payload := by
  refine ⟨fun options => DhcpOption.parseAll_encodeAll_eq_iff, ?_, ⟨fun m =>
    RelayMessage.parse_encode_eq_ok_iff, fun bs e => RelayMessage.parse_eq_error_iff, ?_⟩, ?_⟩
  · intro bs
    obtain ⟨-, rest, hbs, hstops⟩ := DhcpOption.holds_parseAll bs
    refine ⟨rest, hbs, ?_⟩
    cases hstops with
    | noHeader h => exact .inl h
    | short h => exact .inr ⟨_, _, _, _, _, rfl, h⟩
  · intro bs hlong
    cases hread : RelayMessage.parse bs with
    | ok m =>
      obtain ⟨rest, hbs, -⟩ := RelayMessage.encode_append_of_parse hread
      exact ⟨m, rfl, rest, hbs.symm⟩
    | error e =>
      have hshort := (RelayMessage.parse_eq_error_iff.1 hread).1
      omega
  · intro hopCount link peer payload hfits
    refine ⟨.forward hopCount link peer payload, ?_, rfl, rfl, rfl, ⟨_, rfl⟩, rfl⟩
    refine RelayMessage.parse_encode_eq_ok_iff.2 fun o ho => ?_
    obtain rfl := List.mem_singleton.1 ho
    exact hfits

/-- Octets that are options themselves, one without data and one with the code of a message
inside. -/
def optionLike : Bytes := [0, 1, 0, 0, 0, 9, 0, 1, 7]

/-- As a payload they come back whole. Read as options, with the first octets of one more behind
them, they are two, and those octets are left. -/
theorem encoding_exact_optionLike :
    (∃ m, RelayMessage.parse (RelayMessage.forward 1 .unspecified .unspecified optionLike).encode =
        .ok m ∧ m.relayMessage = .ok optionLike) ∧
      DhcpOption.parseAll (optionLike ++ [0, 9, 0, 2, 1]) = [⟨1, []⟩, ⟨9, [7]⟩] ∧
      ∃ m, RelayMessage.parse (List.replicate 34 0 ++ [0, 9, 0]) = .ok m ∧
        m.encode <+: List.replicate 34 0 ++ [0, 9, 0] := by
  obtain ⟨-, -, ⟨-, -, hprefix⟩, hforward⟩ := encoding_exact
  obtain ⟨m, hparse, -, -, -, -, hinside⟩ :=
    hforward 1 .unspecified .unspecified optionLike (by decide)
  exact ⟨⟨m, hparse, hinside⟩, by cbv, hprefix _ (by decide)⟩

end DhcpRelay.V6
