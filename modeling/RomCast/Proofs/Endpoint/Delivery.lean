import RomCast.Proofs.Endpoint.Arrival
import RomCast.Proofs.Station.Reading

set_option autoImplicit false

/-!
# Which frames are handed out

What a frame has to look like, byte by byte, for an endpoint to hand out a part of it
(`AddressedTo`), and that nothing else decides: neither what the endpoint has seen, nor its buffers,
nor its link, nor what stands behind the packet (`delivers_exactly_addressed`).
-/

namespace RomCast

namespace Endpoint

/-! ## What the bytes say -/

/-- How many 32-bit words the IPv4 header of a frame says it has. -/
def headerWords (frame : Bytes) : Nat := (frame.byteAt 14).toNat % 16

/-- How long the IPv4 packet of a frame says it is, its header included. -/
def packetLength (frame : Bytes) : Nat := (frame.word16 16).toNat

/-- Where the UDP header of a frame stands. -/
def udpStart (frame : Bytes) : Nat := 14 + 4 * headerWords frame

/-- How long the UDP segment of a frame says it is, its header included. -/
def segmentLength (frame : Bytes) : Nat := (frame.word16 (udpStart frame + 4)).toNat

/-- Where the payload of a datagram stands. -/
def payloadPlace (frame : Bytes) : Nat × Nat :=
  (udpStart frame + 8, udpStart frame + segmentLength frame)

/-- Behind the Ethernet header stands an IPv4 packet that is whole and whose header is right. -/
structure Ipv4Sound (frame : Bytes) : Prop where
  long : 34 ≤ frame.length
  version : (frame.byteAt 14).toNat / 16 = 4
  header : 5 ≤ headerWords frame
  covers : 4 * headerWords frame ≤ packetLength frame
  fits : packetLength frame ≤ frame.length - 14
  /-- In one's complement the words of the header add up to minus zero. -/
  checksum : Checksum.folded (Checksum.wordSum (frame.slice 14 (udpStart frame))) = 0xffff

/-- A packet for the local address, for everybody, or for a host that takes every packet. -/
def ForHost (source : Option Ipv4Address) (frame : Bytes) : Prop :=
  source = none ∨ source.map Ipv4Address.bytes = some (frame.slice 30 34) ∨
    frame.slice 30 34 = [255, 255, 255, 255]

/-- Behind the IPv4 header stands a UDP datagram for a port, in one piece and undamaged. -/
structure UdpSound (port : UInt16) (frame : Bytes) : Prop where
  protocol : frame.byteAt 23 = 17
  /-- No more fragments are to come. -/
  last : (frame.word16 20).toNat / 0x2000 % 2 = 0
  /-- The fragment offset is zero. -/
  first : (frame.word16 20).toNat % 0x2000 = 0
  header : 4 * headerWords frame + 8 ≤ packetLength frame
  covers : 8 ≤ segmentLength frame
  fits : segmentLength frame ≤ packetLength frame - 4 * headerWords frame
  port : frame.word16 (udpStart frame + 2) = port
  /-- There is no checksum, or in one's complement the words of both addresses, the protocol, the
  length and the words of the segment add up to minus zero. -/
  checksum : frame.word16 (udpStart frame + 6) = 0 ∨
    Checksum.folded (Checksum.wordSum (frame.slice 26 34) + 17 + segmentLength frame +
      Checksum.wordSum (frame.slice (udpStart frame) (udpStart frame + segmentLength frame))) =
        0xffff

/-- A frame with a packet that a host with this address looks into. -/
structure Ipv4For (source : Option Ipv4Address) (frame : Bytes) : Prop where
  etherType : frame.word16 12 = 0x0800
  sound : Ipv4Sound frame
  target : ForHost source frame

/-- A frame with a datagram for a host with this address that listens on this port. -/
structure AddressedTo (source : Option Ipv4Address) (port : UInt16) (frame : Bytes) : Prop where
  ipv4 : Ipv4For source frame
  udp : UdpSound port frame

/-! ## The checks find this out -/

theorem version_ipv4At (frame : Bytes) : (ipv4At frame).version = (frame.byteAt 14).toNat / 16 := by
  rw [Ipv4Header.version, versionLength_ipv4At]

theorem headerLength_ipv4At (frame : Bytes) :
    (ipv4At frame).headerLength = 4 * headerWords frame := by
  rw [Ipv4Header.headerLength, versionLength_ipv4At, headerWords, Nat.mul_comm]

theorem read_ipv4At {frame : Bytes} (h : 34 ≤ frame.length) :
    (Reader.read Ipv4Header).result ⟨frame, 14⟩ = .ok (ipv4At frame) := by
  have hsize : Header.size Ipv4Header = 20 := rfl
  rw [Reader.result_read_eq, hsize, if_pos (by omega)]
  rfl

/-- What the check of the IPv4 header looks at, in its order. -/
theorem checkIpv4_eq (frame : Bytes) :
    checkIpv4 frame =
      if frame.length < 34 then .error (.guarded ⟨14, 20, frame.length - 14⟩)
      else if (frame.byteAt 14).toNat / 16 ≠ 4 ∨ 4 * headerWords frame < 20 then .error badVersion
      else if packetLength frame < 4 * headerWords frame ∨
          frame.length < 14 + packetLength frame then .error badTotalLength
      else if Checksum.internet (frame.slice 14 (udpStart frame)) ≠ 0 then
        .error badHeaderChecksum
      else .ok (ipv4At frame) := by
  have hsize : Header.size Ipv4Header = 20 := rfl
  have hstart : ipv4Start = 14 := rfl
  unfold checkIpv4
  by_cases hshort : frame.length < 34
  · simp only [Reader.result_read_eq, hsize, hstart,
      if_neg (show ¬ 20 ≤ frame.length - 14 by omega), if_pos hshort]
    rfl
  -- The header is there.
  have hlong : 34 ≤ frame.length := by omega
  rw [if_neg hshort]
  simp only [read_ipv4At hlong, Action.except_mapError_ok, bind, Except.bind, version_ipv4At,
    headerLength_ipv4At, totalLength_ipv4At hlong, hsize, hstart]
  by_cases hversion : (frame.byteAt 14).toNat / 16 ≠ 4 ∨ 4 * headerWords frame < 20
  · rw [if_pos hversion, if_pos hversion]
    rfl
  rw [if_neg hversion, if_neg hversion]
  by_cases htotal : packetLength frame < 4 * headerWords frame ∨
      frame.length < 14 + packetLength frame
  · rw [if_pos htotal]
    exact if_pos htotal
  rw [if_neg htotal]
  refine (if_neg htotal).trans ?_
  show (if Checksum.internet (frame.slice 14 (udpStart frame)) ≠ 0 then _ else _) = _
  split <;> rfl

/-- The check of the IPv4 header passes for a sound packet, and then gives its header. -/
theorem checkIpv4_eq_ok_iff (frame : Bytes) (ip : Ipv4Header) :
    checkIpv4 frame = .ok ip ↔ Ipv4Sound frame ∧ ip = ipv4At frame := by
  have hplace : udpStart frame = 14 + 4 * headerWords frame := rfl
  have hwords : headerWords frame < 16 := Nat.mod_lt _ (by omega)
  -- A header is short enough for its words to be added up without losing a carry.
  have hright (hfits : udpStart frame ≤ frame.length) :=
    Checksum.internet_eq_zero_iff (b := frame.slice 14 (udpStart frame)) (by
      rw [Bytes.length_slice hfits]
      omega)
  rw [checkIpv4_eq]
  constructor
  · intro hok
    split_ifs at hok with hshort hversion htotal hsum
    have hchecksum := (hright (by omega)).mp (not_not.mp hsum)
    exact ⟨⟨by omega, by omega, by omega, by omega, by omega, hchecksum⟩,
      (Except.ok.inj hok).symm⟩
  · rintro ⟨hsound, rfl⟩
    have hlong := hsound.long
    have hversion := hsound.version
    have hheader := hsound.header
    have hcovers := hsound.covers
    have hfits := hsound.fits
    have hchecksum := (hright (by omega)).mpr hsound.checksum
    rw [if_neg (by omega), if_neg (by omega), if_neg (by omega), if_neg (not_not.mpr hchecksum)]

theorem accepts_ipv4At_iff (config : Config) {frame : Bytes} (h : 34 ≤ frame.length) :
    config.accepts (ipv4At frame).target = true ↔ ForHost config.source frame := by
  have hbytes := bytes_target_ipv4At h
  unfold Config.accepts ForHost
  cases config.source with
  | none => simp
  | some source =>
    simp only [Bool.or_eq_true, decide_eq_true_eq, ← Ipv4Address.bytes_inj, hbytes, reduceCtorEq,
      Option.map_some, Option.some.injEq, false_or]
    exact or_congr eq_comm Iff.rfl

/-- The UDP header that stands behind a frame's IPv4 header. -/
def udpAt (frame : Bytes) : UdpHeader :=
  Header.decode (frame.slice (udpStart frame) (udpStart frame + 8))

section Udp

variable {frame : Bytes}

theorem targetPort_udpAt (h : udpStart frame + 8 ≤ frame.length) :
    (udpAt frame).targetPort = frame.word16 (udpStart frame + 2) :=
  Bytes.word16_slice (n := 2) (by omega) h

theorem length_udpAt (h : udpStart frame + 8 ≤ frame.length) :
    (udpAt frame).length.toNat = segmentLength frame :=
  congrArg UInt16.toNat (Bytes.word16_slice (n := 4) (by omega) h)

theorem isFragment_ipv4At_iff (h : 34 ≤ frame.length) :
    (ipv4At frame).isFragment = false ↔
      (frame.word16 20).toNat / 0x2000 % 2 = 0 ∧ (frame.word16 20).toNat % 0x2000 = 0 := by
  have hlow : (frame.word16 20 &&& (0x3fff : UInt16)).toNat = (frame.word16 20).toNat % 0x4000 := by
    rw [UInt16.toNat_and]
    exact Nat.and_two_pow_sub_one_eq_mod _ 14
  rw [Ipv4Header.isFragment, fragment_ipv4At h, decide_eq_false_iff_not, not_not,
    ← UInt16.toNat_inj, hlow, UInt16.toNat_zero]
  omega

/-- The words of both addresses. -/
theorem pseudoSum_ipv4At (h : 34 ≤ frame.length) (length : Nat) :
    Checksum.pseudoSum (ipv4At frame).source (ipv4At frame).target length =
      Checksum.wordSum (frame.slice 26 34) + 17 + length := by
  have hsplit : frame.slice 26 34 = frame.slice 26 30 ++ frame.slice 30 34 := by
    show (frame.drop 26).take 8 = (frame.drop 26).take 4 ++ (frame.drop 30).take 4
    rw [show frame.drop 30 = (frame.drop 26).drop 4 by rw [List.drop_drop], ← List.take_add]
  have heven : (frame.slice 26 30).length % 2 = 0 := by
    rw [Bytes.length_slice (by omega)]
  rw [Checksum.pseudoSum, bytes_source_ipv4At h, bytes_target_ipv4At h, hsplit,
    Checksum.wordSum_append _ _ heven]

/-- The checksum of a segment passes when there is none or when it is right. -/
theorem udpValid_ipv4At_iff (hlong : 34 ≤ frame.length) (length : Nat) (hlength : 8 ≤ length)
    (hmax : length ≤ 65535) (hfits : udpStart frame + length ≤ frame.length) :
    Checksum.udpValid (ipv4At frame).source (ipv4At frame).target
        (frame.slice (udpStart frame) (udpStart frame + length)) = true ↔
      frame.word16 (udpStart frame + 6) = 0 ∨
        Checksum.folded (Checksum.wordSum (frame.slice 26 34) + 17 + length +
          Checksum.wordSum (frame.slice (udpStart frame) (udpStart frame + length))) = 0xffff := by
  have hsegment : (frame.slice (udpStart frame) (udpStart frame + length)).length = length := by
    rw [Bytes.length_slice hfits]
    omega
  have hnone : frame.word16 (udpStart frame + 6) = 0 ↔
      (frame.slice (udpStart frame) (udpStart frame + length)).byteAt 6 = 0 ∧
        (frame.slice (udpStart frame) (udpStart frame + length)).byteAt 7 = 0 := by
    rw [Bytes.word16_eq_zero_iff (by omega), Bytes.byteAt_slice (by omega),
      Bytes.byteAt_slice (by omega)]
  have hright := Checksum.pseudoHeader_eq_zero_iff (ipv4At frame).source (ipv4At frame).target
    (frame.slice (udpStart frame) (udpStart frame + length)) (by omega)
  rw [hsegment, pseudoSum_ipv4At hlong] at hright
  rw [hnone, ← hright, Checksum.udpValid, hsegment]
  by_cases hzero : (frame.slice (udpStart frame) (udpStart frame + length)).byteAt 6 = 0 ∧
      (frame.slice (udpStart frame) (udpStart frame + length)).byteAt 7 = 0
  · simp [hzero]
  · have hnot : ¬ (decide (length < 8) ||
        (decide ((frame.slice (udpStart frame) (udpStart frame + length)).byteAt 6 = 0) &&
          decide ((frame.slice (udpStart frame) (udpStart frame + length)).byteAt 7 = 0))) =
        true := by
      simp only [Bool.or_eq_true, Bool.and_eq_true, decide_eq_true_eq]
      exact fun h => h.elim (fun hshort => by omega) hzero
    rw [if_neg hnot, decide_eq_true_eq]
    exact ⟨Or.inr, fun h => h.resolve_left hzero⟩

/-- What the check of the datagram looks at, in its order. -/
theorem checkUdp_eq (h : Ipv4Sound frame) (port : UInt16) :
    checkUdp port frame (ipv4At frame) =
      if frame.byteAt 23 ≠ 17 then .ok none
      else if (ipv4At frame).isFragment then .error isFragmented
      else if packetLength frame - 4 * headerWords frame < 8 then
        .error (.guarded ⟨0, 8, packetLength frame - 4 * headerWords frame⟩)
      else if segmentLength frame < 8 ∨
          packetLength frame - 4 * headerWords frame < segmentLength frame then
        .error badUdpLength
      else if frame.word16 (udpStart frame + 2) ≠ port then .ok none
      else if ¬ Checksum.udpValid (ipv4At frame).source (ipv4At frame).target
          (frame.slice (udpStart frame) (udpStart frame + segmentLength frame)) then
        .error badUdpChecksum
      else .ok (some (payloadPlace frame)) := by
  have hlong := h.long
  have hcovers := h.covers
  have hfits := h.fits
  have hsize : Header.size UdpHeader = 8 := rfl
  have hstart : ipv4Start + 4 * headerWords frame = udpStart frame := rfl
  have hplace : udpStart frame = 14 + 4 * headerWords frame := rfl
  have htotal : (ipv4At frame).totalLength.toNat = packetLength frame := by
    rw [totalLength_ipv4At hlong, packetLength]
  have hdatagram : (frame.slice (udpStart frame) (ipv4Start + packetLength frame)).length =
      packetLength frame - 4 * headerWords frame := by
    have hend : ipv4Start = 14 := rfl
    rw [hend, Bytes.length_slice (by omega)]
    omega
  have hprotocol : Checksum.udpProtocol = 17 := rfl
  unfold checkUdp
  simp only [headerLength_ipv4At, protocol_ipv4At, htotal, hstart, hsize, hprotocol]
  by_cases hudp : frame.byteAt 23 ≠ 17
  · rw [if_pos hudp, if_pos hudp]
    rfl
  rw [if_neg hudp, if_neg hudp]
  by_cases hfragment : (ipv4At frame).isFragment = true
  · rw [if_pos hfragment, if_pos hfragment]
    rfl
  rw [if_neg hfragment, if_neg hfragment]
  simp only [Reader.readFront_eq, hsize, hdatagram]
  by_cases hheader : packetLength frame - 4 * headerWords frame < 8
  · rw [if_neg (by omega), if_pos hheader]
    rfl
  -- The UDP header is there.
  have hread : Header.decode ((frame.slice (udpStart frame)
      (ipv4Start + packetLength frame)).take 8) = udpAt frame := by
    have hend : ipv4Start = 14 := rfl
    rw [hend, Bytes.take_slice frame (by omega), udpAt]
  rw [if_pos (by omega), if_neg hheader]
  simp only [hread, Action.except_mapError_ok, bind, Except.bind,
    @length_udpAt frame (by omega), @targetPort_udpAt frame (by omega)]
  by_cases hlength : segmentLength frame < 8 ∨
      packetLength frame - 4 * headerWords frame < segmentLength frame
  · rw [if_pos hlength, if_pos hlength]
    rfl
  have hsegment : (frame.slice (udpStart frame) (ipv4Start + packetLength frame)).take
      (segmentLength frame) =
        frame.slice (udpStart frame) (udpStart frame + segmentLength frame) := by
    have hend : ipv4Start = 14 := rfl
    rw [hend, Bytes.take_slice frame (by omega)]
  rw [if_neg hlength, if_neg hlength, hsegment]
  by_cases hport : frame.word16 (udpStart frame + 2) ≠ port
  · rw [if_pos hport, if_pos hport]
    rfl
  rw [if_neg hport, if_neg hport]
  split <;> rfl

/-- The check of the datagram finds the payload of a sound one for the port, and of no other. -/
theorem checkUdp_eq_some_iff (h : Ipv4Sound frame) (port : UInt16) (range : Nat × Nat) :
    checkUdp port frame (ipv4At frame) = .ok (some range) ↔
      UdpSound port frame ∧ range = payloadPlace frame := by
  have hlong := h.long
  have hcovers := h.covers
  have hfits := h.fits
  have hplace : udpStart frame = 14 + 4 * headerWords frame := rfl
  have hmax : segmentLength frame < 65536 := (frame.word16 (udpStart frame + 4)).toNat_lt
  rw [checkUdp_eq h]
  constructor
  · intro hok
    split_ifs at hok with hudp hfragment hheader hlength hport hchecksum
    · cases hok
    · cases hok
    · have hwhole := (isFragment_ipv4At_iff hlong).mp (Bool.eq_false_iff.mpr hfragment)
      have hvalid := (udpValid_ipv4At_iff hlong (segmentLength frame) (by omega)
        (by omega) (by omega)).mp hchecksum
      exact ⟨⟨not_not.mp hudp, hwhole.1, hwhole.2, by omega, by omega, by omega,
        not_not.mp hport, hvalid⟩, (Option.some.inj (Except.ok.inj hok)).symm⟩
  · rintro ⟨hsound, rfl⟩
    have hheader := hsound.header
    have hshort := hsound.covers
    have hsegment := hsound.fits
    have hwhole := (isFragment_ipv4At_iff hlong).mpr ⟨hsound.last, hsound.first⟩
    have hvalid := (udpValid_ipv4At_iff hlong (segmentLength frame) hshort (by omega)
      (by omega)).mpr hsound.checksum
    rw [if_neg (not_not.mpr hsound.protocol), if_neg (Bool.eq_false_iff.mp hwhole),
      if_neg (by omega), if_neg (by omega), if_neg (not_not.mpr hsound.port),
      if_neg (not_not.mpr hvalid)]

end Udp

/-- A frame has a payload for an endpoint exactly when it is addressed to it. -/
theorem payloadRange?_eq_some_iff (config : Config) (frame : Bytes) (range : Nat × Nat) :
    config.payloadRange? frame = some range ↔
      AddressedTo config.source config.port frame ∧ range = payloadPlace frame := by
  have hnotArp : etherTypeIpv4 ≠ etherTypeArp := by decide
  unfold Config.payloadRange?
  rw [readFront_ethernetAt]
  constructor
  · intro hsome
    split_ifs at hsome with hfront
    simp only [etherType_ethernetAt hfront] at hsome
    split_ifs at hsome with harp hip
    cases hcheck : checkIpv4 frame with
    | error cause => simp [hcheck] at hsome
    | ok ip =>
      obtain ⟨hsound, rfl⟩ := (checkIpv4_eq_ok_iff frame ip).mp hcheck
      simp only [hcheck] at hsome
      split_ifs at hsome with haccepts
      cases hudp : checkUdp config.port frame (ipv4At frame) with
      | error cause => simp [hudp, Except.toOption] at hsome
      | ok found =>
        obtain rfl : found = some range := by simpa [hudp, Except.toOption] using hsome
        obtain ⟨hsegment, hrange⟩ := (checkUdp_eq_some_iff hsound config.port range).mp hudp
        exact ⟨⟨⟨hip, hsound, (accepts_ipv4At_iff config hsound.long).mp haccepts⟩, hsegment⟩,
          hrange⟩
  · rintro ⟨⟨⟨hip, hsound, hhost⟩, hsegment⟩, rfl⟩
    have hlong := hsound.long
    have hcheck := (checkIpv4_eq_ok_iff frame _).mpr ⟨hsound, rfl⟩
    have haccepts := (accepts_ipv4At_iff config hlong).mpr hhost
    have hudp := (checkUdp_eq_some_iff hsound config.port _).mpr ⟨hsegment, rfl⟩
    have htype : frame.word16 12 = etherTypeIpv4 := hip
    rw [if_pos (by omega)]
    simp only [etherType_ethernetAt (show 14 ≤ frame.length by omega), htype, if_neg hnotArp,
      if_true, hcheck, haccepts, hudp]
    rfl

/-! ## Only the packet counts -/

section Locality

variable {source : Option Ipv4Address} {port : UInt16} {body : Bytes}

theorem packetLength_append (h : 18 ≤ body.length) (tail : Bytes) :
    packetLength (body ++ tail) = packetLength body := by
  rw [packetLength, packetLength, Bytes.word16_append_left (by omega)]

theorem packetLength_take {frame : Bytes} {n : Nat} (h : 18 ≤ (frame.take n).length) :
    packetLength (frame.take n) = packetLength frame := by
  rw [← packetLength_append h (frame.drop n), List.take_append_drop]

theorem udpStart_append (h : 18 ≤ body.length) (tail : Bytes) :
    udpStart (body ++ tail) = udpStart body := by
  rw [udpStart, udpStart, headerWords, headerWords, Bytes.byteAt_append_left (by omega)]

/-- A sound datagram lies within its packet. -/
theorem AddressedTo.bounds {frame : Bytes} (h : AddressedTo source port frame) :
    34 ≤ 14 + packetLength frame ∧ udpStart frame + 8 ≤ 14 + packetLength frame ∧
      udpStart frame + segmentLength frame ≤ 14 + packetLength frame ∧
      udpStart frame ≤ 14 + packetLength frame := by
  have hwords := h.ipv4.sound.header
  have hcovers := h.ipv4.sound.covers
  have hheader := h.udp.header
  have hfits := h.udp.fits
  have hstart : udpStart frame = 14 + 4 * headerWords frame := rfl
  omega

/-- Whatever else stands behind a whole packet, it is addressed to the same. -/
theorem AddressedTo.of_tail (hfront : 18 ≤ body.length)
    (hwhole : 14 + packetLength body ≤ body.length) {tail : Bytes}
    (h : AddressedTo source port (body ++ tail)) (tail' : Bytes) :
    AddressedTo source port (body ++ tail') ∧
      payloadPlace (body ++ tail') = payloadPlace (body ++ tail) := by
  obtain ⟨hlong, hudp, hsegment, hstart⟩ := h.bounds
  have hpacket := packetLength_append hfront
  have hplace := udpStart_append hfront
  have hwords : ∀ t, headerWords (body ++ t) = headerWords body := by
    intro t
    rw [headerWords, headerWords, Bytes.byteAt_append_left (by omega)]
  rw [hpacket, hplace] at hudp hsegment hstart
  rw [hpacket] at hlong
  have hlength : ∀ t, segmentLength (body ++ t) = segmentLength body := by
    intro t
    rw [segmentLength, segmentLength, hplace, Bytes.word16_append_left (by omega)]
  rw [hlength] at hsegment
  obtain ⟨⟨htype, ⟨-, hversion, hheader, hcovers, -, hsum⟩, hhost⟩,
    ⟨hprotocol, hlast, hfirst, hroom, hshort, hfits, hport, hchecksum⟩⟩ := h
  rw [ForHost, Bytes.slice_append_left (by omega)] at hhost
  simp (disch := omega) only [Bytes.word16_append_left, Bytes.byteAt_append_left,
    Bytes.slice_append_left, hpacket, hplace, hwords, hlength]
    at htype hversion hheader hcovers hsum hprotocol hlast hfirst hroom hshort hfits hport hchecksum
  have hsound : Ipv4Sound (body ++ tail') := {
    long := by
      rw [List.length_append]
      omega
    version := by rwa [Bytes.byteAt_append_left (by omega)]
    header := by rwa [hwords]
    covers := by rwa [hwords, hpacket]
    fits := by
      rw [hpacket, List.length_append]
      omega
    checksum := by rwa [hplace, Bytes.slice_append_left (by omega)] }
  have hsegmentSound : UdpSound port (body ++ tail') := {
    protocol := by rwa [Bytes.byteAt_append_left (by omega)]
    last := by rwa [Bytes.word16_append_left (by omega)]
    first := by rwa [Bytes.word16_append_left (by omega)]
    header := by rwa [hwords, hpacket]
    covers := by rwa [hlength]
    fits := by rwa [hwords, hpacket, hlength]
    port := by rwa [hplace, Bytes.word16_append_left (by omega)]
    checksum := by
      rwa [hplace, hlength, Bytes.word16_append_left (by omega),
        Bytes.slice_append_left (by omega), Bytes.slice_append_left (by omega)] }
  refine ⟨⟨⟨?_, hsound, ?_⟩, hsegmentSound⟩, ?_⟩
  · rw [Bytes.word16_append_left (by omega), htype]
  · rw [ForHost, Bytes.slice_append_left (by omega)]
    exact hhost
  · rw [payloadPlace, payloadPlace, hplace, hplace, hlength, hlength]

/-- A frame that is cut off behind its packet is addressed to the same. -/
theorem addressedTo_take_iff {frame : Bytes} {n : Nat} (h : AddressedTo source port frame) :
    AddressedTo source port (frame.take n) ↔ 14 + packetLength frame ≤ n := by
  have hbounds := h.bounds
  have hfits := h.ipv4.sound.fits
  have hlong := h.ipv4.sound.long
  constructor
  · intro hcut
    have hcutLong := hcut.ipv4.sound.long
    have hcutFits := hcut.ipv4.sound.fits
    rw [packetLength_take (by omega)] at hcutFits
    rw [List.length_take] at hcutLong hcutFits
    omega
  · intro hn
    -- What is left begins with the packet.
    let packet := frame.take (14 + packetLength frame)
    have hlength : packet.length = 14 + packetLength frame := by
      rw [List.length_take]
      omega
    have hfront : 18 ≤ packet.length := by omega
    have hsame : packetLength packet = packetLength frame := packetLength_take hfront
    have hsplit : frame = packet ++ frame.drop (14 + packetLength frame) :=
      (List.take_append_drop _ frame).symm
    have hcut : frame.take n =
        packet ++ (frame.drop (14 + packetLength frame)).take (n - packet.length) := by
      conv => lhs; rw [hsplit]
      rw [List.take_append, List.take_of_length_le (by omega)]
    rw [hsplit] at h
    rw [hcut]
    exact (h.of_tail hfront (by omega) _).1

/-- What is addressed to somebody when it has been cut off was so before, and with the same
payload. -/
theorem AddressedTo.of_take {frame : Bytes} {n : Nat}
    (h : AddressedTo source port (frame.take n)) :
    AddressedTo source port frame ∧ payloadPlace frame = payloadPlace (frame.take n) ∧
      Bytes.slice (frame.take n) (payloadPlace frame).1 (payloadPlace frame).2 =
        frame.slice (payloadPlace frame).1 (payloadPlace frame).2 := by
  have hbounds := h.bounds
  have hlong := h.ipv4.sound.long
  have hfits := h.ipv4.sound.fits
  have hcut : AddressedTo source port (frame.take n ++ []) := by rwa [List.append_nil]
  obtain ⟨hwhole, hplace⟩ := hcut.of_tail (by omega) (by omega) (frame.drop n)
  rw [List.take_append_drop, List.append_nil] at hplace
  rw [List.take_append_drop] at hwhole
  refine ⟨hwhole, hplace, ?_⟩
  have hend : (payloadPlace frame).2 ≤ (frame.take n).length := by
    rw [hplace]
    show udpStart (frame.take n) + segmentLength (frame.take n) ≤ _
    omega
  have hslice := Bytes.slice_append_left hend (frame.drop n) (payloadPlace frame).1
  rw [List.take_append_drop] at hslice
  exact hslice.symm

end Locality

/-! ## Handing out -/

section Delivers

variable {L : Type} [Transport L]

/-- Handling the frame hands out this part of it. -/
def Delivers (e : Endpoint L) (frame : Bytes) (range : Nat × Nat) : Prop :=
  ∃ after, (handle : Action FrameError (Endpoint L × Bytes) (Option (Nat × Nat))) (e, frame) =
    .ok (some range) after

theorem delivers_iff_addressed (e : Endpoint L) (frame : Bytes) (range : Nat × Nat) :
    Delivers e frame range ↔
      AddressedTo e.config.source e.config.port frame ∧ range = payloadPlace frame := by
  rw [← payloadRange?_eq_some_iff]
  constructor
  · rintro ⟨after, hhandle⟩
    have hrange := handle_range e frame
    rw [hhandle] at hrange
    exact hrange.symm
  · intro hrange
    obtain ⟨e', hhandle⟩ := handle_of_payloadRange? e hrange
    exact ⟨(e', frame), hhandle⟩

/-- A packet that is cut off is refused. -/
theorem handle_of_not_sound (e : Endpoint L) {frame : Bytes}
    (htype : 14 ≤ frame.length → frame.word16 12 = 0x0800) (h : ¬ Ipv4Sound frame) :
    ∃ cause after, (handle : Action FrameError (Endpoint L × Bytes) (Option (Nat × Nat)))
      (e, frame) = .error cause after := by
  rw [handle_eq]
  by_cases hfront : 14 ≤ frame.length
  · rw [dispatch_of_ipv4 _ hfront (htype hfront)]
    cases hcheck : checkIpv4 frame with
    | ok ip => exact absurd ((checkIpv4_eq_ok_iff frame ip).mp hcheck).1 h
    | error cause =>
      simp only [Action.onFirst, Action.on, receiveIpv4_eq, hcheck]
      exact ⟨_, _, rfl⟩
  · rw [dispatch_of_short _ (by omega)]
    exact ⟨_, _, rfl⟩

theorem handle_of_cut (e : Endpoint L) {frame : Bytes} {n : Nat}
    (h : AddressedTo e.config.source e.config.port frame) (hcut : n < 14 + packetLength frame) :
    ∃ cause after, (handle : Action FrameError (Endpoint L × Bytes) (Option (Nat × Nat)))
      (e, frame.take n) = .error cause after := by
  have hfits := h.ipv4.sound.fits
  have hlong := h.ipv4.sound.long
  refine handle_of_not_sound e (fun hfront => ?_) fun hsound => ?_
  · rw [List.length_take] at hfront
    rw [Bytes.word16_take (by omega) (by omega)]
    exact h.ipv4.etherType
  · have hcutLong := hsound.long
    have hcutFits := hsound.fits
    rw [packetLength_take (by omega)] at hcutFits
    rw [List.length_take] at hcutFits hcutLong
    omega

/-- An endpoint hands out exactly the payloads of the datagrams that are addressed to it.

What it has been sent before, what its resolver knows, which buffers it has and which link it is on
make no difference to this, nor do bytes behind the packet: a frame that is cut off either hands out
the same payload, when the whole packet is left, or is refused.  A frame whose payload is handed out
is left as it is, and every frame is counted. -/
theorem delivers_exactly_addressed (e : Endpoint L) (frame : Bytes) :
    (∀ range, Delivers e frame range ↔
      AddressedTo e.config.source e.config.port frame ∧ range = payloadPlace frame) ∧
    (∀ {M : Type} [Transport M] (other : Endpoint M),
      other.config.source = e.config.source → other.config.port = e.config.port →
        ∀ range, Delivers other frame range ↔ Delivers e frame range) ∧
    (∀ body tail tail', frame = body ++ tail → 18 ≤ body.length →
      14 + packetLength body ≤ body.length →
        ∀ range, Delivers e (body ++ tail') range ↔ Delivers e frame range) ∧
    (∀ n range, Delivers e (frame.take n) range → Delivers e frame range ∧
      Bytes.slice (frame.take n) range.1 range.2 = frame.slice range.1 range.2) ∧
    (∀ n range, Delivers e frame range →
      (14 + packetLength frame ≤ n ∧ Delivers e (frame.take n) range) ∨
        ∃ cause after, handle (e, frame.take n) = .error cause after) ∧
    (∀ range after, handle (e, frame) = .ok (some range) after → after.2 = frame) ∧
    CountsArrival e.counters (handle (e, frame)) := by
  refine ⟨delivers_iff_addressed e frame, ?_, ?_, ?_, ?_, ?_, handle_counts e frame⟩
  · intro M _ other hsource hport range
    rw [delivers_iff_addressed, delivers_iff_addressed, hsource, hport]
  · rintro body tail tail' rfl hfront hwhole range
    rw [delivers_iff_addressed, delivers_iff_addressed]
    constructor
    · rintro ⟨haddressed, rfl⟩
      obtain ⟨hsame, hplace⟩ := haddressed.of_tail hfront hwhole tail
      exact ⟨hsame, hplace.symm⟩
    · rintro ⟨haddressed, rfl⟩
      obtain ⟨hsame, hplace⟩ := haddressed.of_tail hfront hwhole tail'
      exact ⟨hsame, hplace.symm⟩
  · intro n range hcut
    obtain ⟨haddressed, rfl⟩ := (delivers_iff_addressed e _ range).mp hcut
    obtain ⟨hwhole, hplace, hslice⟩ := haddressed.of_take
    rw [← hplace]
    exact ⟨(delivers_iff_addressed e frame _).mpr ⟨hwhole, rfl⟩, hslice⟩
  · intro n range hwhole
    obtain ⟨haddressed, rfl⟩ := (delivers_iff_addressed e frame range).mp hwhole
    rcases Nat.lt_or_ge n (14 + packetLength frame) with hshort | hlong
    · exact Or.inr (handle_of_cut e haddressed hshort)
    · have hcut := (addressedTo_take_iff haddressed).mpr hlong
      obtain ⟨-, hplace, -⟩ := hcut.of_take
      exact Or.inl ⟨hlong, (delivers_iff_addressed e _ _).mpr ⟨hcut, hplace⟩⟩
  · intro range after hhandle
    have hrange := handle_range e frame
    rw [hhandle] at hrange
    obtain ⟨e', hsame⟩ := handle_of_payloadRange? e hrange.symm
    rw [hsame] at hhandle
    injection hhandle with _ hafter
    rw [← hafter]

/-- A datagram for everybody, with two bytes of padding behind it, that comes to an endpoint without
an address of its own. -/
theorem padded_broadcast_delivered :
    let e : Endpoint MemoryLink := new (MemoryLink.ofQueue Mac.zero 1) {}
    let frame := datagramFrame Mac.zero {} Mac.broadcast 1 [1, 2, 3] ++ [0, 0]
    Delivers e frame (42, 45) ∧ AddressedTo none defaultPort frame ∧
      payloadPlace frame = (42, 45) := by
  intro e frame
  have hrange : e.config.payloadRange? frame = some (42, 45) :=
    payloadRange?_frame_append e.config _ (by decide) [0, 0]
  obtain ⟨e', hhandle⟩ := handle_of_payloadRange? e hrange
  have hdelivers : Delivers e frame (42, 45) := ⟨_, hhandle⟩
  obtain ⟨haddressed, hplace⟩ := ((delivers_exactly_addressed e frame).1 (42, 45)).mp hdelivers
  exact ⟨hdelivers, haddressed, hplace.symm⟩

end Delivers

end Endpoint

end RomCast
