import DhcpRelay.Proofs.Octets
import DhcpRelay.Proofs.V4.DhcpOption
import DhcpRelay.V4.Packet

/-!
# Reading and writing DHCPv4 packets

A packet that is read is well-formed (`Packet.WellFormed`), and a well-formed packet is read as it
was written (`Packet.parse_encode`): the fields of the header stand where the lengths of those
before them put them, the options end at the end octet, and so the zeros that fill up a short packet
are not read.
-/

namespace DhcpRelay.V4.Packet

/-- A packet whose hardware address fits its field and whose options can be written. -/
structure WellFormed (p : Packet) : Prop where
  hlen_le : p.hlen ≤ maxHardwareLen
  options : ∀ o ∈ p.options, o.WellFormed

instance (p : Packet) : Decidable p.WellFormed :=
  decidable_of_iff (p.hlen ≤ maxHardwareLen ∧ ∀ o ∈ p.options, o.WellFormed)
    ⟨fun ⟨hlen, hoptions⟩ => ⟨hlen, hoptions⟩, fun h => ⟨h.hlen_le, h.options⟩⟩

variable {p : Packet} {data : Bytes}

/-! ## Writing -/

/-- A header is as long as its fields are together. -/
theorem length_encodeHeader (p : Packet) : p.encodeHeader.length = 236 := by
  simp [encodeHeader]

/-- In a written packet the header and the cookie are followed by the options and, if it is short,
by zeros. -/
theorem encode_eq (p : Packet) : p.encode = p.encodeHeader ++ magicCookie ++
    (DhcpOption.encodeAll p.options ++ List.replicate
      (minPacketSize - (240 + (DhcpOption.encodeAll p.options).length)) 0) := by
  have hlength : (p.encodeHeader ++ magicCookie ++ DhcpOption.encodeAll p.options).length =
      240 + (DhcpOption.encodeAll p.options).length := by
    rw [List.length_append, List.length_append, length_encodeHeader]
    rfl
  rw [encode, padTo, hlength, List.append_assoc]

/-- A written packet is as long as its header, its cookie and its options are together, or as the
least size of a packet. -/
theorem length_encode (p : Packet) :
    p.encode.length = max minPacketSize (240 + (DhcpOption.encodeAll p.options).length) := by
  simp only [encode_eq, List.length_append, length_encodeHeader, magicCookie, List.length_cons,
    List.length_nil, List.length_replicate]
  omega

/-- Another number of hops is another fourth octet. -/
theorem encode_with_hops (p : Packet) (hops : UInt8) :
    { p with hops }.encode = p.encode.set 3 hops := by
  simp [encode_eq, encodeHeader]

/-! ## Reading -/

/-- A packet that is read is well-formed. -/
theorem wellFormed_of_parse (h : parse data = .ok p) : p.WellFormed := by
  unfold parse at h
  split at h
  · cases h
  · dsimp only at h
    split at h
    · cases h
    · split at h
      · cases h
      · next hlen =>
        obtain rfl := Except.ok.inj h
        exact ⟨UInt8.not_lt.1 hlen, fun o ho => DhcpOption.wellFormed_of_mem_parseAll ho⟩

/-- A header and a cookie in front of anything are read, and then the options in what follows. -/
theorem parse_header (p : Packet) (hlen : p.hlen ≤ maxHardwareLen) (rest : Bytes) :
    parse (p.encodeHeader ++ magicCookie ++ rest) =
      .ok { p with options := DhcpOption.parseAll rest } := by
  have hdata : p.encodeHeader ++ magicCookie ++ rest =
      [[p.op, p.htype, p.hlen, p.hops], (Octets.ofNat 4 p.xid.toNat).toList,
        (Octets.ofNat 2 p.secs.toNat).toList, (Octets.ofNat 2 p.flags.toNat).toList,
        p.ciaddr.octets.toList, p.yiaddr.octets.toList, p.siaddr.octets.toList,
        p.giaddr.octets.toList, p.chaddr.toList, p.sname.toList, p.file.toList, magicCookie,
        rest].flatten := by
    simp [encodeHeader]
  have hlong : 240 ≤ (p.encodeHeader ++ magicCookie ++ rest).length := by
    simp only [List.length_append, length_encodeHeader, magicCookie, List.length_cons,
      List.length_nil]
    omega
  -- From here on only the parts matter.
  generalize p.encodeHeader ++ magicCookie ++ rest = data at hdata hlong
  have hcookie : data.field 236 4 = magicCookie :=
    Bytes.field_flatten hdata (k := 11) rfl (by simp) rfl
  rw [Bytes.field] at hcookie
  have hfirst : ∀ (i : Nat) (hi : i < 4) (h : i < data.length),
      data[i] = [p.op, p.htype, p.hlen, p.hops][i] := by
    intro i hi h
    have hsplit := hdata.trans List.flatten_cons
    rw [List.getElem_of_eq hsplit h]
    exact List.getElem_append_left hi
  have hhardware : ¬ maxHardwareLen < data[2] := by
    rw [hfirst 2 (by decide)]
    exact UInt8.not_lt.2 hlen
  rw [parse, dif_neg (show ¬ data.length < headerSize from Nat.not_lt.2 hlong)]
  dsimp only
  rw [if_neg (not_not_intro hcookie), if_neg hhardware, Except.ok.injEq, Packet.mk.injEq]
  refine ⟨hfirst 0 (by decide) _, hfirst 1 (by decide) _, hfirst 2 (by decide) _,
    hfirst 3 (by decide) _, ?_, ?_, ?_, ?_, ?_, ?_, ?_, ?_, ?_, ?_, ?_⟩
  · rw [Octets.slice_flatten hdata (k := 1) rfl (by simp), Octets.toNat_ofNat]
    simp
  · rw [Octets.slice_flatten hdata (k := 2) rfl (by simp), Octets.toNat_ofNat]
    simp
  · rw [Octets.slice_flatten hdata (k := 3) rfl (by simp), Octets.toNat_ofNat]
    simp
  · exact congrArg V4Address.mk (Octets.slice_flatten hdata (k := 4) rfl (by simp) _)
  · exact congrArg V4Address.mk (Octets.slice_flatten hdata (k := 5) rfl (by simp) _)
  · exact congrArg V4Address.mk (Octets.slice_flatten hdata (k := 6) rfl (by simp) _)
  · exact congrArg V4Address.mk (Octets.slice_flatten hdata (k := 7) rfl (by simp) _)
  · exact Octets.slice_flatten hdata (k := 8) rfl (by simp) _
  · exact Octets.slice_flatten hdata (k := 9) rfl (by simp) _
  · exact Octets.slice_flatten hdata (k := 10) rfl (by simp) _
  · rw [Bytes.drop_flatten hdata (k := 12) (by simp [magicCookie])]
    simp

/-- A well-formed packet is read as it was written. -/
theorem parse_encode (h : p.WellFormed) : parse p.encode = .ok p := by
  rw [encode_eq, parse_header p h.hlen_le, DhcpOption.parseAll_encodeAll_append h.options]

/-! ## Relaying -/

/-- A well-formed packet stays so when it is relayed. -/
theorem WellFormed.relayed (h : p.WellFormed) (op type : UInt8) :
    (p.relayed op (relayOptions type p.options)).WellFormed :=
  ⟨h.hlen_le, wellFormed_relayOptions h.options⟩

end DhcpRelay.V4.Packet
