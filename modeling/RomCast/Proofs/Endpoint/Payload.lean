import RomCast.Endpoint.Receive
import RomCast.Proofs.Endpoint.Transmit
import RomCast.Proofs.Message

set_option autoImplicit false

/-!
# Which payload a frame has

Whether a frame carries a payload for an endpoint, and where, depends on the frame and on the
endpoint's configuration alone (`Config.payloadRange?`).  The frame of a datagram carries its
payload to whoever accepts the datagram's target and listens on its port, whatever bytes follow the
frame (`payloadRange?_frame_append`).
-/

namespace RomCast.Endpoint

/-- Where the payload of a datagram lies within a frame, if the frame carries one for an endpoint
with this configuration. -/
def Config.payloadRange? (config : Config) (frame : Bytes) : Option (Nat × Nat) :=
  match Reader.readFront EthernetHeader frame with
  | .error _ => none
  | .ok ethernet =>
      if ethernet.etherType = etherTypeArp then none
      else if ethernet.etherType = etherTypeIpv4 then
        match checkIpv4 frame with
        | .error _ => none
        | .ok ip =>
            if config.accepts ip.target then (checkUdp config.port frame ip).toOption.join else none
      else none

theorem version_ipv4 (a : Addressing) (n : Nat) : (a.ipv4 n).version = 4 := by
  show (0x45 : UInt8).toNat / 16 = 4
  decide

theorem headerLength_ipv4 (a : Addressing) (n : Nat) : (a.ipv4 n).headerLength = 20 := by
  show (0x45 : UInt8).toNat % 16 * 4 = 20
  decide

theorem totalLength_ipv4 (a : Addressing) {n : Nat} (h : n < 65536) :
    (a.ipv4 n).totalLength.toNat = n := by
  show (UInt16.ofNat n).toNat = n
  rw [UInt16.toNat_ofNat', Nat.mod_eq_of_lt h]

/-- An endpoint's own IPv4 headers are found right, whatever follows the frame. -/
theorem checkIpv4_frame (a : Addressing) {payload : Bytes} (h : payload.length ≤ maxDatagram)
    (extra : Bytes) :
    checkIpv4 (a.frame payload ++ extra) = .ok (a.ipv4 (28 + payload.length)) := by
  have hfits : payload.length ≤ 1558 := h
  have hethernet := a.length_ethernet
  have hwhole : a.frame payload ++ extra = Header.encode a.ethernet ++
      (Header.encode (a.ipv4 (28 + payload.length)) ++
        (Header.encode (a.udpHeader payload) ++ (payload ++ extra))) := by
    simp only [Addressing.frame, List.append_assoc]
  have hread : (Reader.read Ipv4Header).result ⟨a.frame payload ++ extra, 14⟩ =
      .ok (a.ipv4 (28 + payload.length)) := by
    have hbehind := Reader.read_encode_append (Header.encode a.ethernet)
      (a.ipv4 (28 + payload.length)) (Header.encode (a.udpHeader payload) ++ (payload ++ extra))
    rw [hethernet, ← hwhole] at hbehind
    exact hbehind
  have htotal := totalLength_ipv4 a (n := 28 + payload.length) (by omega)
  have hsize : Header.size Ipv4Header = 20 := rfl
  have hstart : ipv4Start = 14 := rfl
  have hslice : (a.frame payload ++ extra).slice 14 (14 + 20) =
      Header.encode (a.ipv4 (28 + payload.length)) := by
    have hmiddle := Bytes.slice_middle (Header.encode a.ethernet)
      (Header.encode (a.ipv4 (28 + payload.length)))
      (Header.encode (a.udpHeader payload) ++ (payload ++ extra))
    rw [hethernet, a.length_ipv4, ← hwhole] at hmiddle
    exact hmiddle
  have hsum : Checksum.internet ((a.frame payload ++ extra).slice 14 (14 + 20)) = 0 := by
    rw [hslice]
    exact Ipv4Header.internet_withChecksum _
  unfold checkIpv4
  simp only [hread, Action.except_mapError_ok, bind, Except.bind, version_ipv4,
    headerLength_ipv4, htotal, hsize, hstart, List.length_append,
    a.length_frame, hsum]
  simp only [ne_eq, not_true_eq_false, false_or, Nat.lt_irrefl, if_false]
  have hshort : ¬ (28 + payload.length < 20 ∨
      42 + payload.length + extra.length < 14 + (28 + payload.length)) := by
    omega
  simp only [if_neg hshort]
  rfl

theorem udpValid_segment (a : Addressing) {payload : Bytes} (h : payload.length ≤ maxDatagram) :
    Checksum.udpValid a.source a.target (Header.encode (a.udpHeader payload) ++ payload) = true := by
  have hfits : payload.length ≤ 1558 := h
  have hsegment : Header.encode (a.udpHeader payload) ++ payload =
      a.udpFront (8 + payload.length) ++
        (Bytes.ofWord16 (a.udpChecksum payload) ++ payload) := by
    rw [a.encode_udpHeader, List.append_assoc]
  unfold Checksum.udpValid
  by_cases hcheck : a.withChecksum = true
  · have hvalue : a.udpChecksum payload = Checksum.udp a.source a.target
        (a.udpFront (8 + payload.length) ++ (Bytes.ofWord16 0 ++ payload)) := by
      rw [Addressing.udpChecksum, if_pos hcheck, a.encode_udp, List.append_assoc]
    have hzero : Checksum.pseudoHeader a.source a.target
        (Header.encode (a.udpHeader payload) ++ payload) = 0 := by
      rw [hsegment, hvalue]
      refine Checksum.pseudoHeader_of_placed a.source a.target _ payload ?_ ?_
      · rw [a.length_udpFront]
      · rw [a.length_udpFront]
        omega
    rw [hzero]
    split
    · rfl
    · rfl
  · -- No checksum was put in, and the receiver sees that.
    have hvalue : a.udpChecksum payload = 0 := by
      rw [Addressing.udpChecksum, if_neg hcheck]
    have hsixth : (Header.encode (a.udpHeader payload) ++ payload).byteAt 6 = 0 := by
      rw [hsegment, hvalue, Bytes.byteAt_append_right (Nat.le_of_eq (a.length_udpFront _)),
        a.length_udpFront]
      rfl
    have hseventh : (Header.encode (a.udpHeader payload) ++ payload).byteAt 7 = 0 := by
      rw [hsegment, hvalue, Bytes.byteAt_append_right (by rw [a.length_udpFront]; omega),
        a.length_udpFront]
      rfl
    rw [hsixth, hseventh]
    simp

theorem checkUdp_frame (a : Addressing) {payload : Bytes} (h : payload.length ≤ maxDatagram)
    (port : UInt16) (extra : Bytes) :
    checkUdp port (a.frame payload ++ extra) (a.ipv4 (28 + payload.length)) =
      .ok (if a.port = port then some (42, 42 + payload.length) else none) := by
  have hfits : payload.length ≤ 1558 := h
  have hprotocol : (a.ipv4 (28 + payload.length)).protocol = Checksum.udpProtocol := rfl
  have hwhole : (a.ipv4 (28 + payload.length)).isFragment = false := by
    show decide ((0x4000 : UInt16) &&& 0x3fff ≠ 0) = false
    decide
  have htotal := totalLength_ipv4 a (n := 28 + payload.length) (by omega)
  have hstart : ipv4Start = 14 := rfl
  have hsize : Header.size UdpHeader = 8 := rfl
  have hdatagram : (a.frame payload ++ extra).slice (14 + 20) (14 + (28 + payload.length)) =
      Header.encode (a.udpHeader payload) ++ payload := by
    have hmiddle := Bytes.slice_middle
      (Header.encode a.ethernet ++ Header.encode (a.ipv4 (28 + payload.length)))
      (Header.encode (a.udpHeader payload) ++ payload) extra
    simp only [List.length_append, a.length_ethernet, a.length_ipv4, a.length_udpHeader,
      List.append_assoc] at hmiddle
    have hend : 14 + 20 + (8 + payload.length) = 14 + (28 + payload.length) := by omega
    rw [hend] at hmiddle
    rw [Addressing.frame]
    simp only [List.append_assoc]
    exact hmiddle
  have hread : Reader.readFront UdpHeader (Header.encode (a.udpHeader payload) ++ payload) =
      .ok (a.udpHeader payload) := Reader.readFront_encode_append _ _
  have hlength : (a.udpHeader payload).length.toNat = 8 + payload.length := by
    show (UInt16.ofNat (8 + payload.length)).toNat = _
    rw [UInt16.toNat_ofNat']
    omega
  have hsegmentLength : (Header.encode (a.udpHeader payload) ++ payload).length =
      8 + payload.length := by
    rw [List.length_append, a.length_udpHeader]
  have htake : (Header.encode (a.udpHeader payload) ++ payload).take (8 + payload.length) =
      Header.encode (a.udpHeader payload) ++ payload := by
    rw [← hsegmentLength, List.take_length]
  have hport : (a.udpHeader payload).targetPort = a.port := rfl
  have hsource : (a.ipv4 (28 + payload.length)).source = a.source := rfl
  have htarget : (a.ipv4 (28 + payload.length)).target = a.target := rfl
  have hshort : ¬ (8 + payload.length < 8 ∨ 8 + payload.length < 8 + payload.length) := by
    omega
  unfold checkUdp
  simp only [hprotocol, hwhole, headerLength_ipv4, htotal, hstart, hsize, hdatagram, hread,
    Action.except_mapError_ok, bind, Except.bind, hlength, hsegmentLength, htake, hport, hsource, htarget,
    udpValid_segment a h, if_neg hshort]
  by_cases hsame : a.port = port
  · simp only [hsame, ne_eq, not_true_eq_false, if_false, if_true, Bool.false_eq_true]
    have hend : 14 + 20 + (8 + payload.length) = 42 + payload.length := by omega
    simp only [hend]
    rfl
  · simp only [hsame, ne_eq, not_true_eq_false, not_false_eq_true, if_false, if_true,
      Bool.false_eq_true]
    rfl

/-- A datagram is for whoever accepts its target and listens on its port. -/
theorem payloadRange?_frame_append (config : Config) (a : Addressing) {payload : Bytes}
    (h : payload.length ≤ maxDatagram) (extra : Bytes) :
    config.payloadRange? (a.frame payload ++ extra) =
      if config.accepts a.target = true ∧ a.port = config.port then
        some (42, 42 + payload.length) else none := by
  have hethernet : Reader.readFront EthernetHeader (a.frame payload ++ extra) = .ok a.ethernet := by
    rw [Addressing.frame, List.append_assoc]
    exact Reader.readFront_encode_append _ _
  have htype : a.ethernet.etherType = etherTypeIpv4 := rfl
  have hnotArp : etherTypeIpv4 ≠ etherTypeArp := by decide
  have htarget : (a.ipv4 (28 + payload.length)).target = a.target := rfl
  unfold Config.payloadRange?
  simp only [hethernet, htype, if_neg hnotArp, if_true, checkIpv4_frame a h, htarget,
    checkUdp_frame a h]
  by_cases haccepts : config.accepts a.target = true
  · by_cases hport : a.port = config.port
    · simp [haccepts, hport, Except.toOption]
    · simp [haccepts, hport, Except.toOption]
  · simp [haccepts]

theorem payloadRange?_frame (config : Config) (a : Addressing) {payload : Bytes}
    (h : payload.length ≤ maxDatagram) :
    config.payloadRange? (a.frame payload) =
      if config.accepts a.target = true ∧ a.port = config.port then
        some (42, 42 + payload.length) else none := by
  rw [← payloadRange?_frame_append config a h [], List.append_nil]

theorem slice_frame_append (a : Addressing) (payload extra : Bytes) :
    (a.frame payload ++ extra).slice 42 (42 + payload.length) = payload := by
  have hmiddle := Bytes.slice_middle
    (Header.encode a.ethernet ++ (Header.encode (a.ipv4 (28 + payload.length)) ++
      Header.encode (a.udpHeader payload))) payload extra
  simp only [List.length_append, a.length_ethernet, a.length_ipv4, a.length_udpHeader,
    List.append_assoc] at hmiddle
  rw [Addressing.frame]
  simp only [List.append_assoc]
  exact hmiddle

theorem slice_frame (a : Addressing) (payload : Bytes) :
    (a.frame payload).slice 42 (42 + payload.length) = payload := by
  rw [← List.append_nil (a.frame payload), slice_frame_append]

end RomCast.Endpoint
