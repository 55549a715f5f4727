import RomCast.Endpoint
import RomCast.Proofs.Checksum
import RomCast.Proofs.Cursor.Filling

set_option autoImplicit false

/-!
# The frame of a datagram

What stands on the wire for a payload: an Ethernet, an IPv4 and a UDP header with their lengths and
checksums, and the payload (`Addressing.frame`).  Writing a frame leaves exactly that at the front
of the buffer (`write_holding`).
-/

namespace RomCast

/-- An IPv4 header with its checksum in place sums up right. -/
theorem Ipv4Header.internet_withChecksum (h : Ipv4Header) :
    Checksum.internet (Header.encode h.withChecksum) = 0 := by
  -- The checksum's place is the sixth word of ten.
  obtain ⟨front, back, hfront, hback, hencode⟩ : ∃ front back : Bytes,
      front.length = 10 ∧ back.length = 8 ∧ ∀ w : UInt16,
        Header.encode { h with checksum := w } = front ++ (Bytes.ofWord16 w ++ back) := by
    refine ⟨[h.versionLength, h.service] ++ (Bytes.ofWord16 h.totalLength ++
      (Bytes.ofWord16 h.identification ++ (Bytes.ofWord16 h.fragment ++
        [h.timeToLive, h.protocol]))), h.source.bytes ++ h.target.bytes, ?_, ?_, ?_⟩
    · simp
    · simp
    · intro w
      simp [Header.encode]
  rw [withChecksum, hencode, hencode]
  exact Checksum.internet_of_placed front back (by omega) (by omega)

namespace Endpoint.Addressing

/-- The UDP header of a datagram with this payload. -/
def udpHeader (a : Addressing) (payload : Bytes) : UdpHeader :=
  let bare := a.udp (8 + payload.length)
  { bare with checksum :=
      if a.withChecksum then Checksum.udp a.source a.target (Header.encode bare ++ payload) else 0 }

/-- A datagram as it stands on the wire. -/
def frame (a : Addressing) (payload : Bytes) : Bytes :=
  Header.encode a.ethernet ++ (Header.encode (a.ipv4 (28 + payload.length)) ++
    (Header.encode (a.udpHeader payload) ++ payload))

variable (a : Addressing)

@[simp] theorem length_ethernet : (Header.encode a.ethernet).length = 14 :=
  LawfulHeader.length_encode a.ethernet

@[simp] theorem length_ipv4 (n : Nat) : (Header.encode (a.ipv4 n)).length = 20 :=
  LawfulHeader.length_encode (a.ipv4 n)

@[simp] theorem length_udp (n : Nat) : (Header.encode (a.udp n)).length = 8 :=
  LawfulHeader.length_encode (a.udp n)

@[simp] theorem length_udpHeader (payload : Bytes) :
    (Header.encode (a.udpHeader payload)).length = 8 :=
  LawfulHeader.length_encode (a.udpHeader payload)

@[simp] theorem length_frame (payload : Bytes) :
    (a.frame payload).length = 42 + payload.length := by
  simp only [frame, List.length_append, length_ethernet, length_ipv4, length_udpHeader]
  omega

/-! ## Writing -/

/-- The bytes of a UDP header in front of its checksum. -/
def udpFront (n : Nat) : Bytes :=
  Bytes.ofWord16 Endpoint.sourcePort ++ (Bytes.ofWord16 a.port ++ Bytes.ofWord16 (UInt16.ofNat n))

@[simp] theorem length_udpFront (n : Nat) : (a.udpFront n).length = 6 := by
  simp [udpFront]

theorem encode_udp (n : Nat) :
    Header.encode (a.udp n) = a.udpFront n ++ Bytes.ofWord16 0 := by
  simp [Header.encode, udp, udpFront]

/-- The checksum that a datagram's UDP header carries. -/
def udpChecksum (payload : Bytes) : UInt16 :=
  if a.withChecksum then
    Checksum.udp a.source a.target (Header.encode (a.udp (8 + payload.length)) ++ payload)
  else 0

theorem encode_udpHeader (payload : Bytes) :
    Header.encode (a.udpHeader payload) =
      a.udpFront (8 + payload.length) ++ Bytes.ofWord16 (a.udpChecksum payload) := by
  simp [Header.encode, udpHeader, udp, udpFront, udpChecksum]

/-- Putting the checksum into a UDP header that has none. -/
theorem patch_checksum (front payload rest : Bytes) :
    Writer.patch (front.length + 6) (Bytes.ofWord16 (a.udpChecksum payload))
      (Writer.holding
        (front ++ (Header.encode (a.udp (8 + payload.length)) ++ payload)) rest) =
      .ok () (Writer.holding
        (front ++ (Header.encode (a.udpHeader payload) ++ payload)) rest) := by
  have hpatch := Writer.patch_holding (front ++ a.udpFront (8 + payload.length))
    (Bytes.ofWord16 0) payload (Bytes.ofWord16 (a.udpChecksum payload)) rest (by simp)
  rw [List.length_append, length_udpFront] at hpatch
  rw [encode_udp, encode_udpHeader]
  simpa using hpatch

/-- The headers of IPv4 and UDP are put around a payload that is there. -/
theorem complete_holding (ethernet second third payload rest : Bytes)
    (hethernet : ethernet.length = 14) (hsecond : second.length = 20)
    (hthird : third.length = 8) :
    a.complete 14 34 (Writer.holding (ethernet ++ (second ++ (third ++ payload))) rest) =
      .ok (42 + payload.length) (Writer.holding
        (ethernet ++ (Header.encode (a.ipv4 (28 + payload.length)) ++
          (Header.encode (a.udpHeader payload) ++ payload))) rest) := by
  have hfront : (ethernet ++ second).length = 34 := by
    rw [List.length_append, hethernet, hsecond]
  have hstop : (ethernet ++ (second ++ (third ++ payload))).length = 42 + payload.length := by
    simp only [List.length_append, hethernet, hsecond, hthird]
    omega
  have hudpLength : 42 + payload.length - 34 = 8 + payload.length := by omega
  have hipLength : 42 + payload.length - 14 = 28 + payload.length := by omega
  -- The UDP header goes in without its checksum first.
  have hbare := Writer.patch_holding (ethernet ++ second) third payload
    (Header.encode (a.udp (8 + payload.length))) rest ((length_udp a _).trans hthird.symm)
  rw [hfront, List.append_assoc] at hbare
  have hsegment : (ethernet ++ second ++
      (Header.encode (a.udp (8 + payload.length)) ++ payload) ++ rest).slice 34
        (42 + payload.length) = Header.encode (a.udp (8 + payload.length)) ++ payload := by
    have hslice := Bytes.slice_middle (ethernet ++ second)
      (Header.encode (a.udp (8 + payload.length)) ++ payload) rest
    have hend : (ethernet ++ second).length +
        (Header.encode (a.udp (8 + payload.length)) ++ payload).length = 42 + payload.length := by
      rw [hfront, List.length_append, length_udp]
      omega
    rw [hend, hfront] at hslice
    rw [List.append_assoc _ _ rest]
    exact hslice
  have hchecksum := patch_checksum a (ethernet ++ second) payload rest
  rw [hfront] at hchecksum
  have hheader := Writer.patch_holding ethernet second
    (Header.encode (a.udpHeader payload) ++ payload)
    (Header.encode (a.ipv4 (28 + payload.length))) rest ((length_ipv4 a _).trans hsecond.symm)
  rw [hethernet, ← List.append_assoc ethernet second] at hheader
  unfold complete
  simp only [Action.bind_apply, Action.get_apply, Writer.position_holding, hstop, hudpLength,
    hipLength, hbare]
  by_cases hcheck : a.withChecksum = true
  · have hvalue : a.udpChecksum payload = Checksum.udp a.source a.target
        (Header.encode (a.udp (8 + payload.length)) ++ payload) := by
      rw [udpChecksum, if_pos hcheck]
    simp only [hcheck, if_pos, Action.bind_apply, Action.get_apply, Writer.buffer_holding,
      hsegment, ← hvalue, hchecksum, hheader, Action.pure_apply]
  · have hzero : a.udpChecksum payload = 0 := by
      rw [udpChecksum, if_neg hcheck]
    have hsame : Header.encode (a.udp (8 + payload.length)) =
        Header.encode (a.udpHeader payload) := by
      rw [encode_udp, encode_udpHeader, hzero]
    simp only [hcheck, hsame, Bool.false_eq_true, if_false, Action.bind_apply, Action.pure_apply,
      hheader]

/-- Writing a frame leaves the datagram's bytes at the front of the buffer. -/
theorem write_holding {room : Nat} {fill : Action GuardError Writer Unit} {payload : Bytes}
    (hfill : Writer.FillsWithin room fill payload) (hpayload : payload.length ≤ room)
    {buffer : Bytes} (hroom : 42 + room ≤ buffer.length) :
    ∃ rest, a.write fill ⟨buffer, 0⟩ =
      .ok (42 + payload.length) (Writer.holding (a.frame payload) rest) := by
  obtain ⟨front, rest, hbuffer, hfront⟩ :=
    Bytes.exists_split (n := 42 + payload.length) (b := buffer) (by omega)
  obtain ⟨first, front₁, hsplit₁, hfirst⟩ := Bytes.exists_split (n := 14) (b := front) (by omega)
  subst hsplit₁
  simp only [List.length_append] at hfront
  obtain ⟨second, front₂, hsplit₂, hsecond⟩ :=
    Bytes.exists_split (n := 20) (b := front₁) (by omega)
  subst hsplit₂
  simp only [List.length_append] at hfront
  obtain ⟨third, fourth, hsplit₃, hthird⟩ := Bytes.exists_split (n := 8) (b := front₂) (by omega)
  subst hsplit₃ hbuffer
  simp only [List.length_append] at hfront
  have hfourth : fourth.length = payload.length := by omega
  have hbehind : room ≤ fourth.length + rest.length := by
    simp only [List.length_append] at hroom
    omega
  refine ⟨rest, ?_⟩
  have hput : Writer.put a.ethernet
      ⟨first ++ (second ++ (third ++ fourth)) ++ rest, 0⟩ =
        .ok () (Writer.holding (Header.encode a.ethernet)
          (second ++ (third ++ (fourth ++ rest)))) := by
    have hfills := Writer.put_fills a.ethernet [] first (second ++ (third ++ (fourth ++ rest)))
      (hfirst.trans (length_ethernet a).symm)
    simpa [Writer.holding] using hfills
  have hip := Writer.reserve_holding (Header.encode a.ethernet) second
    (third ++ (fourth ++ rest))
  rw [hsecond, length_ethernet] at hip
  have hudp := Writer.reserve_holding (Header.encode a.ethernet ++ second) third
    (fourth ++ rest)
  rw [hthird, List.length_append, length_ethernet, hsecond] at hudp
  have hfilled := hfill (Header.encode a.ethernet ++ second ++ third) fourth rest hfourth
    hbehind
  have hcomplete := complete_holding a (Header.encode a.ethernet) second third payload rest
    (length_ethernet a) hsecond hthird
  have hipSize : Header.size Ipv4Header = 20 := rfl
  have hudpSize : Header.size UdpHeader = 8 := rfl
  have hshape : Header.encode a.ethernet ++ second ++ third ++ payload =
      Header.encode a.ethernet ++ (second ++ (third ++ payload)) := by
    simp only [List.append_assoc]
  rw [hshape] at hfilled
  unfold write
  simp only [Action.bind_apply, hput, hipSize, hip, hudpSize, hudp, hfilled]
  exact hcomplete

end Endpoint.Addressing

end RomCast
