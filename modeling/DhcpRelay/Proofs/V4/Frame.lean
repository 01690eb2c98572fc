import DhcpRelay.Proofs.V4.Checksum

/-!
# What stands in a frame

A frame has three headers of fixed lengths, so its addresses, ports and lengths are read from fixed
positions and its payload stands behind 42 octets (`FrameAddresses.carries_frame`). The two lengths
are written in 16 bits; they are the true ones if headers and payload together fit 16 bits
(`FrameAddresses.Carries.lengthsTrue`).

Such a frame is a valid one (`FrameAddresses.frame_valid`). Its checksums are read by a receiver as
the sums of what they cover, themselves included, and both sums are 0xFFFF
(`FrameAddresses.checksumsHold_frame`), for each is written into two octets that were zero while it
was taken. No sum is taken over more than 65536 octets, so that none wraps.
-/

namespace DhcpRelay.V4.FrameAddresses

/-- A frame has the given addresses in its headers, and the payload behind them. -/
structure Carries (a : FrameAddresses) (payload frame : Bytes) : Prop where
  length_eq : frame.length = 42 + payload.length
  dstMac : frame.field 0 6 = a.dstMac.octets.toList
  srcMac : frame.field 6 6 = a.srcMac.octets.toList
  totalLength : frame.field 16 2 = Octets.digitsOf 2 (28 + payload.length)
  srcIp : frame.field 26 4 = a.srcIp.octets.toList
  dstIp : frame.field 30 4 = a.dstIp.octets.toList
  srcPort : Octets.valueOf (frame.field 34 2) = a.srcPort.toNat
  dstPort : Octets.valueOf (frame.field 36 2) = a.dstPort.toNat
  udpLength : frame.field 38 2 = Octets.digitsOf 2 (8 + payload.length)
  payload : frame.drop 42 = payload

variable {a : FrameAddresses} {payload frame : Bytes}

/-- A number of 16 bits is read as it was written. -/
theorem valueOf_uint16 (v : UInt16) :
    Octets.valueOf (Octets.digitsOf 2 v.toNat) = v.toNat := by
  rw [Octets.valueOf_digitsOf]
  exact Nat.mod_eq_of_lt v.toNat_lt

/-- The checksum in the IPv4 header of the frame of a payload. -/
def headerSum (a : FrameAddresses) (payload : Bytes) : UInt16 :=
  checksum (a.ipHeader (28 + payload.length) 0)

/-- The checksum in the UDP header of the frame of a payload. -/
def segmentSum (a : FrameAddresses) (payload : Bytes) : UInt16 :=
  udpChecksum a.srcIp a.dstIp (a.segment payload 0)

/-- The fields of a frame, one behind the other. -/
theorem frame_fields (a : FrameAddresses) (payload : Bytes) : a.frame payload =
    [a.dstMac.octets.toList, a.srcMac.octets.toList, [0x08, 0x00], [0x45], [0x00],
      Octets.digitsOf 2 (28 + payload.length), [0, 0, 0, 0], [64], [udpProtocol],
      Octets.digitsOf 2 (a.headerSum payload).toNat, a.srcIp.octets.toList, a.dstIp.octets.toList,
      Octets.digitsOf 2 a.srcPort.toNat, Octets.digitsOf 2 a.dstPort.toNat,
      Octets.digitsOf 2 (8 + payload.length), Octets.digitsOf 2 (a.segmentSum payload).toNat,
      payload].flatten := by
  simp [frame, ipHeader, segment, headerSum, segmentSum]

/-- A frame has its addresses in its headers, and the payload behind them. -/
theorem carries_frame (a : FrameAddresses) (payload : Bytes) :
    a.Carries payload (a.frame payload) := by
  have hframe := frame_fields a payload
  refine ⟨?_, ?_, ?_, ?_, ?_, ?_, ?_, ?_, ?_, ?_⟩
  · simp [hframe]
    omega
  · exact Bytes.field_flatten hframe (k := 0) rfl (by simp) (by simp)
  · exact Bytes.field_flatten hframe (k := 1) rfl (by simp) (by simp)
  · exact Bytes.field_flatten hframe (k := 5) rfl (by simp) (by simp)
  · exact Bytes.field_flatten hframe (k := 10) rfl (by simp) (by simp)
  · exact Bytes.field_flatten hframe (k := 11) rfl (by simp) (by simp)
  · rw [Bytes.field_flatten hframe (k := 12) rfl (by simp) (by simp)]
    exact valueOf_uint16 a.srcPort
  · rw [Bytes.field_flatten hframe (k := 13) rfl (by simp) (by simp)]
    exact valueOf_uint16 a.dstPort
  · exact Bytes.field_flatten hframe (k := 14) rfl (by simp) (by simp)
  · rw [Bytes.drop_flatten hframe (k := 16) (by simp)]
    simp

/-- The length in the IPv4 header of a frame is that of the IPv4 packet, and the length in the UDP
header is that of the UDP segment. -/
structure LengthsTrue (frame : Bytes) : Prop where
  totalLength : Octets.valueOf (frame.field 16 2) = (frame.drop 14).length
  udpLength : Octets.valueOf (frame.field 38 2) = (frame.drop 34).length

/-- The lengths in the headers are the true ones if headers and payload fit 16 bits. -/
theorem Carries.lengthsTrue (h : a.Carries payload frame) (hfits : payload.length ≤ 65507) :
    LengthsTrue frame := by
  have hip : Octets.valueOf (frame.field 16 2) = (28 + payload.length) % 65536 := by
    rw [h.totalLength, Octets.valueOf_digitsOf]
  have hudp : Octets.valueOf (frame.field 38 2) = (8 + payload.length) % 65536 := by
    rw [h.udpLength, Octets.valueOf_digitsOf]
  have hlength := h.length_eq
  constructor
  · rw [hip, List.length_drop]
    omega
  · rw [hudp, List.length_drop]
    omega

/-! ## Checksums -/

/-- What the UDP checksum of a frame covers, as a receiver reads it off the frame: the addresses,
the protocol, the length of the segment, and the segment. -/
def udpCovered (frame : Bytes) : Bytes :=
  frame.field 26 4 ++ frame.field 30 4 ++ [0, 17] ++ frame.field 38 2 ++ frame.drop 34

/-- A receiver finds both checksums of a frame right: the ones' complement sums of what they cover
are 0xFFFF. That of the UDP header is there. -/
structure ChecksumsHold (frame : Bytes) : Prop where
  headerSum : onesSum (frame.field 14 20) = 0xFFFF
  header : checksum (frame.field 14 20) = 0
  segmentSum : onesSum (udpCovered frame) = 0xFFFF
  segment : checksum (udpCovered frame) = 0
  given : Octets.valueOf (frame.field 40 2) ≠ 0

/-- No addition wraps, neither in the three sums that are taken for the frame of a payload nor in
those that a receiver takes to check it. -/
structure NoSumWraps (a : FrameAddresses) (payload : Bytes) : Prop where
  header : SumsTruly 0 (a.ipHeader (28 + payload.length) 0)
  pseudoHeader : SumsTruly 0 (pseudoHeader a.srcIp a.dstIp (a.segment payload 0).length)
  segment : SumsTruly (sumWords 0 (V4.pseudoHeader a.srcIp a.dstIp (a.segment payload 0).length))
    (a.segment payload 0)
  headerCheck : SumsTruly 0 ((a.frame payload).field 14 20)
  segmentCheck : SumsTruly 0 (udpCovered (a.frame payload))

@[simp]
theorem length_ipHeader (a : FrameAddresses) (length : Nat) (sum : UInt16) :
    (a.ipHeader length sum).length = 20 := by
  simp [ipHeader]

@[simp]
theorem length_segment (a : FrameAddresses) (payload : Bytes) (sum : UInt16) :
    (a.segment payload sum).length = 8 + payload.length := by
  simp [segment]
  omega

@[simp]
theorem length_pseudoHeader (src dst : V4Address) (length : Nat) :
    (pseudoHeader src dst length).length = 12 := by
  simp [pseudoHeader]

/-- The IPv4 header of a frame stands behind its Ethernet header. -/
theorem field_ipHeader (a : FrameAddresses) (payload : Bytes) :
    (a.frame payload).field 14 20 = a.ipHeader (28 + payload.length) (a.headerSum payload) := by
  have hparts : a.frame payload = [a.dstMac.octets.toList, a.srcMac.octets.toList, [0x08, 0x00],
      a.ipHeader (28 + payload.length) (a.headerSum payload),
      a.segment payload (a.segmentSum payload)].flatten := by
    simp [frame, headerSum, segmentSum]
  exact Bytes.field_flatten hparts (k := 3) rfl (by simp) (by simp)

/-- What the UDP checksum of a frame covers is what it was taken over, but for itself. -/
theorem udpCovered_frame (a : FrameAddresses) (payload : Bytes) :
    udpCovered (a.frame payload) = pseudoHeader a.srcIp a.dstIp (8 + payload.length) ++
      a.segment payload (a.segmentSum payload) := by
  have hcarries := a.carries_frame payload
  have hsegment : (a.frame payload).drop 34 = a.segment payload (a.segmentSum payload) := by
    rw [Bytes.drop_flatten (frame_fields a payload) (k := 12) (by simp)]
    simp [segment]
  rw [udpCovered, hcarries.srcIp, hcarries.dstIp, hcarries.udpLength, hsegment, pseudoHeader,
    udpProtocol]

/-- The checksum in a UDP header is that of the segment behind its pseudo header, with 0xFFFF in the
place of zero. -/
theorem segmentSum_eq (a : FrameAddresses) (payload : Bytes) :
    let sum := checksum (pseudoHeader a.srcIp a.dstIp (8 + payload.length) ++ a.segment payload 0)
    a.segmentSum payload = if sum = 0 then 0xFFFF else sum := by
  have hlength : (pseudoHeader a.srcIp a.dstIp (8 + payload.length)).length % 2 = 0 := by simp
  simp only [segmentSum, udpChecksum, checksum, length_segment, sumWords_append hlength]

/-- No sum wraps if headers and payload fit 16 bits. -/
theorem noSumWraps_of_length (a : FrameAddresses) (hfits : payload.length ≤ 65507) :
    a.NoSumWraps payload := by
  have htruly {bs : Bytes} (h : bs.length ≤ 0x10000) : SumsTruly 0 bs :=
    sumsTruly_of_lt (by simpa using sum_words_lt h)
  refine ⟨htruly (by simp), htruly (by simp), SumsTruly.behind (by simp) (htruly ?_), htruly ?_,
    htruly ?_⟩
  · simp only [List.length_append, length_pseudoHeader, length_segment]
    omega
  · simp only [field_ipHeader, length_ipHeader]
    omega
  · simp only [udpCovered_frame, List.length_append, length_pseudoHeader, length_segment]
    omega

/-- The checksum of the IPv4 header brings the sum of the header to 0xFFFF. -/
theorem onesSum_ipHeader (a : FrameAddresses) (payload : Bytes) :
    onesSum (a.ipHeader (28 + payload.length) (a.headerSum payload)) = 0xFFFF := by
  have hsplit (sum : UInt16) : a.ipHeader (28 + payload.length) sum =
      ([0x45, 0] ++ Octets.digitsOf 2 (28 + payload.length) ++ [0, 0, 0, 0, 64, udpProtocol]) ++
        (Octets.digitsOf 2 sum.toNat ++ (a.srcIp.octets.toList ++ a.dstIp.octets.toList)) := by
    simp [ipHeader]
  have hsum : (a.headerSum payload).toNat =
      0xFFFF - onesSum (a.ipHeader (28 + payload.length) 0) :=
    toNat_checksum (sum_words_lt (by simp))
  rw [hsplit] at hsum ⊢
  exact onesSum_of_filled (by simp) (.inl hsum)

/-- The checksum of the UDP header brings the sum of what it covers to 0xFFFF. -/
theorem onesSum_udpCovered (a : FrameAddresses) (hfits : payload.length ≤ 65507) :
    onesSum (pseudoHeader a.srcIp a.dstIp (8 + payload.length) ++
      a.segment payload (a.segmentSum payload)) = 0xFFFF := by
  have hsplit (sum : UInt16) :
      pseudoHeader a.srcIp a.dstIp (8 + payload.length) ++ a.segment payload sum =
        (pseudoHeader a.srcIp a.dstIp (8 + payload.length) ++ Octets.digitsOf 2 a.srcPort.toNat ++
          Octets.digitsOf 2 a.dstPort.toNat ++ Octets.digitsOf 2 (8 + payload.length)) ++
        (Octets.digitsOf 2 sum.toNat ++ payload) := by
    simp [segment]
  have hlt : (words (pseudoHeader a.srcIp a.dstIp (8 + payload.length) ++
      a.segment payload 0)).sum < 2 ^ 32 := by
    apply sum_words_lt
    simp only [List.length_append, length_pseudoHeader, length_segment]
    omega
  have hsum := segmentSum_eq a payload
  have hzero := checksum_eq_zero_iff hlt
  have hchecksum := toNat_checksum hlt
  rw [hsplit] at hsum hzero hchecksum ⊢
  refine onesSum_of_filled (by simp) ?_
  simp only at hsum ⊢
  split at hsum
  case isTrue h => exact .inr ⟨hzero.1 h, by rw [hsum]; rfl⟩
  case isFalse h => exact .inl (by rw [hsum, hchecksum])

/-- The checksum in a UDP header is never zero. -/
theorem segmentSum_ne_zero (a : FrameAddresses) (payload : Bytes) : a.segmentSum payload ≠ 0 := by
  have hsum := segmentSum_eq a payload
  simp only at hsum
  split at hsum
  case isTrue h => simp [hsum]
  case isFalse h => rwa [hsum]

/-- A receiver finds both checksums of a frame right. -/
theorem checksumsHold_frame (a : FrameAddresses) (hfits : payload.length ≤ 65507) :
    ChecksumsHold (a.frame payload) := by
  have hheader : onesSum ((a.frame payload).field 14 20) = 0xFFFF := by
    rw [field_ipHeader]
    exact a.onesSum_ipHeader payload
  have hsegment : onesSum (udpCovered (a.frame payload)) = 0xFFFF := by
    rw [udpCovered_frame]
    exact a.onesSum_udpCovered hfits
  have hgiven : Octets.valueOf ((a.frame payload).field 40 2) = (a.segmentSum payload).toNat := by
    rw [Bytes.field_flatten (frame_fields a payload) (k := 15) rfl (by simp) (by simp)]
    exact valueOf_uint16 (a.segmentSum payload)
  refine ⟨hheader, ?_, hsegment, ?_, ?_⟩
  · refine (checksum_eq_zero_iff (sum_words_lt ?_)).2 hheader
    simp only [field_ipHeader, length_ipHeader]
    omega
  · refine (checksum_eq_zero_iff (sum_words_lt ?_)).2 hsegment
    simp only [udpCovered_frame, List.length_append, length_pseudoHeader, length_segment]
    omega
  · intro hzero
    rw [hgiven] at hzero
    exact a.segmentSum_ne_zero payload (UInt16.toNat_inj.1 hzero)

/-! ## Validity -/

/-- A frame is an Ethernet frame with an IPv4 packet with a UDP datagram, all of them valid, from
and to the given addresses and with the given payload. -/
structure Valid (a : FrameAddresses) (payload frame : Bytes) : Prop where
  carries : a.Carries payload frame
  etherType : frame.field 12 2 = [0x08, 0x00]
  version : frame.field 14 1 = [0x45]
  timeToLive : frame.field 22 1 = [64]
  protocol : frame.field 23 1 = [17]
  totalLength : Octets.valueOf (frame.field 16 2) = 28 + payload.length
  udpLength : Octets.valueOf (frame.field 38 2) = 8 + payload.length
  checksumsHold : ChecksumsHold frame

/-- The frame of a payload that fits is valid, whatever the addresses and whether the payload is of
odd or even length, and no sum wraps in making and checking it. -/
theorem frame_valid (a : FrameAddresses) {payload : Bytes} (hfits : payload.length ≤ 65507) :
    a.Valid payload (a.frame payload) ∧ a.NoSumWraps payload := by
  have hcarries := a.carries_frame payload
  have hlengths := hcarries.lengthsTrue hfits
  have hlength := hcarries.length_eq
  have hframe := frame_fields a payload
  refine ⟨⟨hcarries, ?_, ?_, ?_, ?_, ?_, ?_, a.checksumsHold_frame hfits⟩,
    a.noSumWraps_of_length hfits⟩
  · exact Bytes.field_flatten hframe (k := 2) rfl (by simp) rfl
  · exact Bytes.field_flatten hframe (k := 3) rfl (by simp) rfl
  · exact Bytes.field_flatten hframe (k := 7) rfl (by simp) rfl
  · exact Bytes.field_flatten hframe (k := 8) rfl (by simp) rfl
  · rw [hlengths.totalLength, List.length_drop]
    omega
  · rw [hlengths.udpLength, List.length_drop]
    omega

/-- The addresses of a frame from 192.168.1.1 to 192.168.1.50. -/
def sampleAddresses : FrameAddresses where
  srcMac := ⟨⟨[0x02, 0x11, 0x22, 0x33, 0x44, 0x55], rfl⟩⟩
  dstMac := ⟨⟨[0xAA, 0xBB, 0xCC, 0xDD, 0xEE, 0xFF], rfl⟩⟩
  srcIp := ⟨⟨[192, 168, 1, 1], rfl⟩⟩
  dstIp := ⟨⟨[192, 168, 1, 50], rfl⟩⟩
  srcPort := 67
  dstPort := 68

/-- Three octets whose checksum would be zero are carried by a valid frame, which has 0xFFFF in its
place. -/
theorem frame_valid_of_zero_sum :
    [0x7B, 0xCD, 0x00].length ≤ 65507 ∧
      sampleAddresses.segmentSum [0x7B, 0xCD, 0x00] = 0xFFFF ∧
      sampleAddresses.Valid [0x7B, 0xCD, 0x00] (sampleAddresses.frame [0x7B, 0xCD, 0x00]) ∧
      sampleAddresses.NoSumWraps [0x7B, 0xCD, 0x00] :=
  ⟨by decide, by decide +kernel, sampleAddresses.frame_valid (by decide)⟩

end DhcpRelay.V4.FrameAddresses
