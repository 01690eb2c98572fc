import DhcpRelay.V6.Message

/-!
# Writing and reading DHCPv6 messages

An option that is written in front of anything is the first that is read, provided that its data fit
the length field, and reading goes on with what follows (`DhcpOption.parseAll_encode_append`). So
options and relay messages are read as they were written (`DhcpOption.parseAll_encodeAll`,
`RelayMessage.parse_encode`), and of a message that a relay sends on it can be said what it holds
(`RelayMessage.forward`).
-/

namespace DhcpRelay.V6

namespace DhcpOption

/-- Two octets spell the number that was written into them, if it fits. -/
theorem spell_two {n : Nat} (h : n < 65536) :
    (UInt8.ofNat (n / 256)).toNat * 256 + (UInt8.ofNat n).toNat = n := by
  simp only [UInt8.toNat_ofNat']
  omega

/-- What an option looks like in octets. -/
theorem encode_append (o : DhcpOption) (rest : Bytes) : o.encode ++ rest =
    UInt8.ofNat (o.code.toNat / 256) :: UInt8.ofNat o.code.toNat ::
      UInt8.ofNat (o.data.length / 256) :: UInt8.ofNat o.data.length :: (o.data ++ rest) := by
  simp [encode, Octets.digitsOf]

/-- An option that was written is read, and then what follows it. -/
theorem parseAll_encode_append {o : DhcpOption} (h : o.data.length < 65536) (rest : Bytes) :
    parseAll (o.encode ++ rest) = o :: parseAll rest := by
  have hsplit : Bytes.split? o.data.length (o.data ++ rest) = some (o.data, rest) :=
    Bytes.split?_eq_some_iff.2 ⟨rfl, rfl⟩
  rw [encode_append, parseAll]
  split
  next heq =>
    rw [spell_two h, hsplit] at heq
    cases heq
  next data rest' heq =>
    rw [spell_two h, hsplit] at heq
    obtain ⟨rfl, rfl⟩ := Prod.mk.inj (Option.some.inj heq)
    rw [spell_two o.code.toNat_lt, UInt16.ofNat_toNat]

/-- Options that were written are read, and then what follows them. -/
theorem parseAll_encodeAll_append {options : List DhcpOption}
    (h : ∀ o ∈ options, o.data.length < 65536) (rest : Bytes) :
    parseAll (encodeAll options ++ rest) = options ++ parseAll rest := by
  induction options with
  | nil => rfl
  | cons o options ih =>
    rw [encodeAll, List.flatMap_cons, List.append_assoc, ← encodeAll,
      parseAll_encode_append (h o List.mem_cons_self),
      ih fun p hp => h p (List.mem_cons_of_mem o hp), List.cons_append]

/-- Options are read as they were written. -/
theorem parseAll_encodeAll {options : List DhcpOption}
    (h : ∀ o ∈ options, o.data.length < 65536) : parseAll (encodeAll options) = options := by
  have hnothing : parseAll [] = [] := by
    rw [parseAll]
    simp
  have hread := parseAll_encodeAll_append h []
  rwa [hnothing, List.append_nil, List.append_nil] at hread

end DhcpOption

namespace RelayMessage

/-- A written relay message has its header in front of its options. -/
theorem length_encode (m : RelayMessage) :
    m.encode.length = relayHeaderSize + (DhcpOption.encodeAll m.options).length := by
  simp [encode, relayHeaderSize, m.linkAddress.octets.length_toList,
    m.peerAddress.octets.length_toList]
  omega

/-- A header in front of anything is read, and then the options in what follows it. -/
theorem parse_header (type hopCount : UInt8) (link peer : V6Address) (rest : Bytes) :
    parse (type :: hopCount :: (link.octets.toList ++ (peer.octets.toList ++ rest))) =
      .ok ⟨type, hopCount, link, peer, DhcpOption.parseAll rest⟩ := by
  have hlink := link.octets.length_toList
  have hpeer := peer.octets.length_toList
  have hlong : ¬ (type :: hopCount ::
      (link.octets.toList ++ (peer.octets.toList ++ rest))).length < relayHeaderSize := by
    simp only [List.length_cons, List.length_append, hlink, hpeer, relayHeaderSize]
    omega
  rw [parse, dif_neg hlong]
  refine congrArg Except.ok (RelayMessage.mk.injEq .. ▸ ⟨rfl, rfl, ?_, ?_, ?_⟩)
  · exact congrArg V6Address.mk (Octets.ext_toList (by simp [Octets.slice, hlink]))
  · refine congrArg V6Address.mk (Octets.ext_toList ?_)
    simp only [Octets.slice, List.drop_succ_cons]
    rw [List.drop_left' hlink, List.take_left' hpeer]
  · simp only [List.drop_succ_cons]
    rw [← List.append_assoc, List.drop_left' (by simp [hlink, hpeer])]

/-- Of a written relay message the header is read as it was written, and the options as far as their
data fit the length fields. -/
theorem parse_encode_eq (m : RelayMessage) : parse m.encode =
    .ok { m with options := DhcpOption.parseAll (DhcpOption.encodeAll m.options) } := by
  have hencode : m.encode = m.type :: m.hopCount :: (m.linkAddress.octets.toList ++
      (m.peerAddress.octets.toList ++ DhcpOption.encodeAll m.options)) := by
    simp [encode]
  rw [hencode, parse_header]

/-- A relay message is read as it was written. -/
theorem parse_encode {m : RelayMessage} (h : ∀ o ∈ m.options, o.data.length < 65536) :
    parse m.encode = .ok m := by
  rw [parse_encode_eq, DhcpOption.parseAll_encodeAll h]

section
variable {hopCount : UInt8} {link peer : V6Address} {payload : Bytes}

/-- What was put into a relay message is in it. -/
theorem relayMessage_forward :
    (forward hopCount link peer payload).relayMessage = .ok payload := rfl

/-- Around a payload a relay puts its header and an option of that payload. -/
theorem length_encode_forward :
    (forward hopCount link peer payload).encode.length = payload.length + 38 := by
  simp [length_encode, forward, DhcpOption.encodeAll, DhcpOption.encode, Octets.length_digitsOf,
    relayHeaderSize]
  omega

/-- If all of it fits a datagram, what a relay sends on is read as it was made. -/
theorem parse_encode_forward (h : (forward hopCount link peer payload).encode.length < 65536) :
    parse (forward hopCount link peer payload).encode =
      .ok (forward hopCount link peer payload) := by
  refine parse_encode fun o ho => ?_
  rw [length_encode_forward] at h
  obtain rfl := List.mem_singleton.1 ho
  show payload.length < 65536
  omega

end

/-- The message that answers another one and holds `inner`. -/
def answer (m : RelayMessage) (inner : Bytes) : RelayMessage :=
  { m with
    type := MessageType.relayReply.code, options := [⟨DhcpOption.relayMessageCode, inner⟩] }

/-- If what it holds fits, an answer is read as it was made. -/
theorem parse_encode_answer (m : RelayMessage) {inner : Bytes} (h : inner.length < 65536) :
    parse (m.answer inner).encode = .ok (m.answer inner) := by
  refine parse_encode fun o ho => ?_
  obtain rfl := List.mem_singleton.1 ho
  exact h

end RelayMessage

end DhcpRelay.V6
