import DhcpRelay.Proofs.V4.OptionLayout
import DhcpRelay.Proofs.V4.Sizes

/-!
# Which octet strings hold which packets

An octet string holds a packet if it is the header of the packet, the cookie, and octets from which
the options of the packet are read. Every other string lacks something, and the error names the
first thing that it lacks: it is too short for header and cookie, it has another cookie, or its
third octet is more than the field of the hardware address has (`Packet.Reads`). What is read from
a string is always the one that its octets say (`Packet.parse_eq_iff`).

So a header that is read and written again is the header that was there: the fields of which it is
read stand one after another without a gap, and each is written as the octets it was read from.
Behind it the options are laid out anew, with the end octet and zeros after them
(`Packet.drop_encode`); pads, and what stood behind the options, are gone.
-/

namespace DhcpRelay.V4.Packet

/-! ## What reading gives -/

/-- What reading the octet string gives, by what its octets say. -/
inductive Reads (data : Bytes) : Except ParseError Packet → Prop where
  | tooShort (hshort : data.length < 240) : Reads data (.error (.tooShort data.length))
  | badMagic (hlong : 240 ≤ data.length) (hcookie : data.field 236 4 ≠ magicCookie) :
    Reads data (.error .badMagic)
  | badHardwareLen (hlong : 240 ≤ data.length) (hcookie : data.field 236 4 = magicCookie)
    {hlen : UInt8} (hthird : data[2]? = some hlen) (hover : maxHardwareLen < hlen) :
    Reads data (.error (.badHardwareLen hlen))
  | packet {p : Packet} {rest : Bytes} (hdata : data = p.encodeHeader ++ magicCookie ++ rest)
    (hlen : p.hlen ≤ maxHardwareLen) (hoptions : p.options = DhcpOption.parseAll rest) :
    Reads data (.ok p)

section
variable {data : Bytes} {p : Packet} {r : Except ParseError Packet}

/-- A number of 32 bits is written as the octets it was read from. -/
theorem ofNat_toNat_uint32 (o : Octets 4) : Octets.ofNat 4 (UInt32.ofNat o.toNat).toNat = o := by
  have hlt := o.toNat_lt
  rw [UInt32.toNat_ofNat_of_lt' (by simpa using hlt), Octets.ofNat_toNat]

/-- A number of 16 bits is written as the octets it was read from. -/
theorem ofNat_toNat_uint16 (o : Octets 2) : Octets.ofNat 2 (UInt16.ofNat o.toNat).toNat = o := by
  have hlt := o.toNat_lt
  rw [UInt16.toNat_ofNat_of_lt' (by simpa using hlt), Octets.ofNat_toNat]

/-- What is read is what the octets say. -/
theorem reads_parse (data : Bytes) : Reads data (parse data) := by
  unfold parse
  split
  · next hshort => exact .tooShort hshort
  · next hlong =>
    have hlong : 240 ≤ data.length := by simpa [headerSize] using hlong
    dsimp only
    split
    · next hcookie => exact .badMagic hlong hcookie
    · next hcookie =>
      have hcookie : data.field 236 4 = magicCookie := not_not.1 hcookie
      split
      · next hover => exact .badHardwareLen hlong hcookie (List.getElem?_eq_getElem _) hover
      · next hlen =>
        refine .packet ?_ (UInt8.not_lt.1 hlen) rfl
        have hfirst : [data[0], data[1], data[2], data[3]] = data.take 4 := by
          refine List.ext_getElem (by simp; omega) fun i hi _ => ?_
          have hi : i < 4 := hi
          have hplace : i = 0 ∨ i = 1 ∨ i = 2 ∨ i = 3 := by omega
          rcases hplace with rfl | rfl | rfl | rfl <;> simp
        -- Every field is a slice of the octets, and the next one begins where it ends.
        rw [encodeHeader, ← hcookie]
        simp only [ofNat_toNat_uint32, ofNat_toNat_uint16, hfirst, Octets.toList_slice,
          Bytes.take_append_field, List.take_append_drop]

/-- What the octets say is what is read. -/
theorem Reads.parse_eq (h : Reads data r) : parse data = r := by
  have hlong (h : 240 ≤ data.length) : ¬ data.length < headerSize := Nat.not_lt.2 h
  cases h with
  | tooShort hshort => exact dif_pos hshort
  | badMagic hle hcookie =>
    rw [parse, dif_neg (hlong hle)]
    exact if_pos hcookie
  | badHardwareLen hle hcookie hthird hover =>
    obtain ⟨_, rfl⟩ := List.getElem?_eq_some_iff.1 hthird
    rw [parse, dif_neg (hlong hle)]
    exact (if_neg (not_not_intro hcookie)).trans (if_pos hover)
  | packet hdata hlen hoptions => rw [hdata, parse_header _ hlen, ← hoptions]

/-- What is read from an octet string is what its octets say, and nothing else. -/
theorem parse_eq_iff : parse data = r ↔ Reads data r :=
  ⟨fun h => h ▸ reads_parse data, Reads.parse_eq⟩

/-! ## When reading fails -/

/-- Reading fails for want of octets exactly if header and cookie do not fit. -/
theorem parse_eq_tooShort_iff {n : Nat} :
    parse data = .error (.tooShort n) ↔ data.length < 240 ∧ n = data.length := by
  rw [parse_eq_iff]
  constructor
  · intro h
    cases h with
    | tooShort hshort => exact ⟨hshort, rfl⟩
  · rintro ⟨hshort, rfl⟩
    exact .tooShort hshort

/-- Of the strings that are long enough, reading fails for the cookie exactly if it is another
one. -/
theorem parse_eq_badMagic_iff :
    parse data = .error .badMagic ↔ 240 ≤ data.length ∧ data.field 236 4 ≠ magicCookie := by
  rw [parse_eq_iff]
  constructor
  · intro h
    cases h with
    | badMagic hlong hcookie => exact ⟨hlong, hcookie⟩
  · rintro ⟨hlong, hcookie⟩
    exact .badMagic hlong hcookie

/-- Of the strings with the cookie, reading fails for the hardware address exactly if its length is
more than its field has. -/
theorem parse_eq_badHardwareLen_iff {n : UInt8} :
    parse data = .error (.badHardwareLen n) ↔ 240 ≤ data.length ∧ data.field 236 4 = magicCookie ∧
      data[2]? = some n ∧ 16 < n := by
  rw [parse_eq_iff]
  constructor
  · intro h
    cases h with
    | badHardwareLen hlong hcookie hthird hover => exact ⟨hlong, hcookie, hthird, hover⟩
  · rintro ⟨hlong, hcookie, hthird, hover⟩
    exact .badHardwareLen hlong hcookie hthird hover

/-- All other strings are read. -/
theorem exists_parse_eq_ok_iff : (∃ p, parse data = .ok p) ↔
    240 ≤ data.length ∧ data.field 236 4 = magicCookie ∧ ∃ n, data[2]? = some n ∧ n ≤ 16 := by
  constructor
  · rintro ⟨p, hp⟩
    have hno (e : ParseError) : parse data ≠ .error e := by simp [hp]
    have hlong : 240 ≤ data.length := by
      by_contra hshort
      exact hno _ (parse_eq_tooShort_iff.2 ⟨by omega, rfl⟩)
    have hcookie : data.field 236 4 = magicCookie := by
      by_contra hcookie
      exact hno _ (parse_eq_badMagic_iff.2 ⟨hlong, hcookie⟩)
    have hthird : data[2]? = some data[2] := List.getElem?_eq_getElem _
    refine ⟨hlong, hcookie, data[2], hthird, UInt8.not_lt.1 fun hover => ?_⟩
    exact hno _ (parse_eq_badHardwareLen_iff.2 ⟨hlong, hcookie, hthird, hover⟩)
  · rintro ⟨hlong, hcookie, n, hthird, hle⟩
    cases hr : parse data with
    | ok p => exact ⟨p, rfl⟩
    | error e =>
      cases e with
      | tooShort n =>
        have hshort := (parse_eq_tooShort_iff.1 hr).1
        omega
      | badMagic => exact absurd hcookie (parse_eq_badMagic_iff.1 hr).2
      | badHardwareLen n =>
        obtain ⟨-, -, hsame, hover⟩ := parse_eq_badHardwareLen_iff.1 hr
        obtain rfl := Option.some.inj (hthird.symm.trans hsame)
        exact absurd hover (UInt8.not_lt.2 hle)

/-! ## What writing gives -/

/-- Header and cookie are together as long as the least string that is read. -/
theorem length_header_cookie (p : Packet) : (p.encodeHeader ++ magicCookie).length = 240 := by
  rw [List.length_append, length_encodeHeader]
  rfl

/-- Behind header and cookie a written packet has its options, the end octet, and zeros up to the
least size of a packet. -/
theorem drop_encode (p : Packet) : p.encode.drop 240 =
    p.options.flatMap DhcpOption.encode ++ 255 ::
      List.replicate (272 - (241 + (p.options.flatMap DhcpOption.encode).length)) 0 := by
  have hfill : minPacketSize - (240 + (DhcpOption.encodeAll p.options).length) =
      272 - (241 + (p.options.flatMap DhcpOption.encode).length) := by
    rw [DhcpOption.encodeAll, List.length_append, List.length_singleton, minPacketSize]
    omega
  rw [encode_eq, List.drop_left' (length_header_cookie p), hfill, DhcpOption.encodeAll,
    List.append_assoc]
  rfl

/-- A packet that was read is written with the header and the cookie it was read from. -/
theorem take_encode (h : parse data = .ok p) : p.encode.take 240 = data.take 240 := by
  cases parse_eq_iff.1 h with
  | packet hdata _ _ =>
    rw [encode_eq, hdata, List.take_left' (length_header_cookie p),
      List.take_left' (length_header_cookie p)]

end

/-- Reading and writing packets are exact. A string of fewer than 240 octets is too short; of the
others, one whose octets 236 to 239 are not the cookie has the wrong cookie; of the others, one
whose octet 2 is more than 16 has a hardware address that is too long; all others are read. A packet
with a hardware address that fits its field, and with options whose codes are not 0 and 255 and
whose data have at most 255 octets, is read as it was written. Written it has at least 272 octets,
and behind its end octet there are nothing but zeros, up to the 272nd octet. Every packet that is
read is such a packet. It is written with the first 240 octets it was read from, and reading and
writing once more changes no octet. -/
theorem codec_exact :
    (∀ data : Bytes,
      (∀ n, parse data = .error (.tooShort n) ↔ data.length < 240 ∧ n = data.length) ∧
      (parse data = .error .badMagic ↔
        240 ≤ data.length ∧ data.field 236 4 ≠ [0x63, 0x82, 0x53, 0x63]) ∧
      (∀ n, parse data = .error (.badHardwareLen n) ↔
        240 ≤ data.length ∧ data.field 236 4 = [0x63, 0x82, 0x53, 0x63] ∧
          data[2]? = some n ∧ 16 < n) ∧
      ((∃ p, parse data = .ok p) ↔
        240 ≤ data.length ∧ data.field 236 4 = [0x63, 0x82, 0x53, 0x63] ∧
          ∃ n, data[2]? = some n ∧ n ≤ 16)) ∧
    (∀ p : Packet, p.hlen ≤ 16 →
      (∀ o ∈ p.options, o.code ≠ 0 ∧ o.code ≠ 255 ∧ o.data.length ≤ 255) →
      parse p.encode = .ok p ∧ 272 ≤ p.encode.length ∧
        p.encode.drop 240 = p.options.flatMap DhcpOption.encode ++ 255 ::
          List.replicate (272 - (241 + (p.options.flatMap DhcpOption.encode).length)) 0) ∧
    ∀ (data : Bytes) (p : Packet), parse data = .ok p →
      (p.hlen ≤ 16 ∧ ∀ o ∈ p.options, o.code ≠ 0 ∧ o.code ≠ 255 ∧ o.data.length ≤ 255) ∧
        p.encode.take 240 = data.take 240 ∧
        ∃ q, parse p.encode = .ok q ∧ q.encode = p.encode := by
  refine ⟨fun data => ⟨fun n => parse_eq_tooShort_iff, parse_eq_badMagic_iff,
    fun n => parse_eq_badHardwareLen_iff, exists_parse_eq_ok_iff⟩, ?_, ?_⟩
  · intro p hlen hoptions
    have hwell : p.WellFormed := ⟨hlen, fun o ho => DhcpOption.wellFormed_iff.2 (hoptions o ho)⟩
    exact ⟨parse_encode hwell, length_encode_ge p, drop_encode p⟩
  · intro data p h
    have hwell := wellFormed_of_parse h
    exact ⟨⟨hwell.hlen_le, fun o ho => DhcpOption.wellFormed_iff.1 (hwell.options o ho)⟩,
      take_encode h, p, parse_encode hwell, rfl⟩

/-! ## A packet that is laid out anew -/

/-- A message with two options. -/
def tidyDiscover : Packet :=
  { Relay.clientPacket .discover with options := [⟨53, [1]⟩, ⟨61, [0, 255]⟩] }

/-- The same message with pads before and between its options, and with octets behind the end
octet. -/
def untidyDiscover : Bytes := tidyDiscover.encodeHeader ++ magicCookie ++
  [0, 0, 53, 1, 1, 0, 61, 2, 0, 255, 255, 7, 8]

/-- The message is read, and written again it has the same header, the options without the pads,
and zeros behind the end octet. -/
theorem codec_exact_untidyDiscover : parse untidyDiscover = .ok tidyDiscover ∧
    tidyDiscover.encode.take 240 = untidyDiscover.take 240 ∧
    tidyDiscover.encode.drop 240 = [53, 1, 1, 61, 2, 0, 255, 255] ++ List.replicate 24 0 ∧
    parse tidyDiscover.encode = .ok tidyDiscover := by
  have hread : parse untidyDiscover = .ok tidyDiscover := by
    refine (Reads.packet rfl (by decide) ?_).parse_eq
    cbv
  obtain ⟨-, hwrite, hagain⟩ := codec_exact
  obtain ⟨hparse, -, hdrop⟩ := hwrite tidyDiscover (by decide) (by decide)
  obtain ⟨-, htake, -⟩ := hagain untidyDiscover tidyDiscover hread
  exact ⟨hread, htake, hdrop, hparse⟩

end DhcpRelay.V4.Packet
