import RomCast.Proofs.Endpoint.Inbound
import RomCast.Proofs.Header.Canonical

set_option autoImplicit false

/-!
# Where the fields of a frame stand

The headers of a frame are read from parts that are cut out of it.  Here every field of such a
header is found again at its place in the whole frame, counted from the frame's first byte: the
Ethernet header at 0, an ARP packet or an IPv4 header at 14, and the UDP header wherever the options
of the IPv4 header leave it.
-/

namespace RomCast

/-! ## Parts of parts -/

namespace Bytes

theorem byteAt_drop (b : Bytes) (m n : Nat) : byteAt (b.drop m) n = byteAt b (m + n) := by
  rw [byteAt, byteAt, List.getElem?_drop]

theorem byteAt_take {b : Bytes} {n k : Nat} (h : n < k) : byteAt (b.take k) n = byteAt b n := by
  rw [byteAt, byteAt, List.getElem?_take_of_lt h]

theorem byteAt_slice {b : Bytes} {i j n : Nat} (h : i + n < j) :
    byteAt (b.slice i j) n = byteAt b (i + n) := by
  rw [slice, byteAt_take (by omega), byteAt_drop]

theorem word16_slice {b : Bytes} {i j n : Nat} (h : i + n + 2 ≤ j)
    (hlength : j ≤ b.length) : word16 (b.slice i j) n = word16 b (i + n) := by
  rw [slice, word16_take (by omega) (by rw [List.length_drop]; omega), word16_drop]

theorem slice_slice (b : Bytes) {i j k l : Nat} (h : i + l ≤ j) :
    (b.slice i j).slice k l = b.slice (i + k) (i + l) := by
  rw [slice, slice, slice, List.drop_take, List.drop_drop, List.take_take]
  congr 1
  omega

theorem take_slice (b : Bytes) {i j n : Nat} (h : i + n ≤ j) :
    (b.slice i j).take n = b.slice i (i + n) := by
  rw [slice, slice, List.take_take]
  congr 1
  omega

theorem slice_append_left {x : Bytes} {j : Nat} (h : j ≤ x.length) (y : Bytes)
    (i : Nat) : (x ++ y).slice i j = x.slice i j := by
  rcases Nat.le_total i j with hle | hle
  · rw [slice, slice, List.drop_append_of_le_length (by omega),
      List.take_append_of_le_length (by rw [List.length_drop]; omega)]
  · rw [slice, slice, Nat.sub_eq_zero_of_le hle, List.take_zero, List.take_zero]

theorem byteAt_append_left {x : Bytes} {n : Nat} (h : n < x.length) (y : Bytes) :
    byteAt (x ++ y) n = byteAt x n := by
  rw [byteAt, byteAt, List.getElem?_append_left h]

theorem toNat_word16 {b : Bytes} {n : Nat} (h : n + 2 ≤ b.length) :
    (word16 b n).toNat = (byteAt b n).toNat * 256 + (byteAt b (n + 1)).toNat := by
  have hfirst : byteAt b n = byteAt (b.drop n) 0 := (byteAt_drop b n 0).symm
  have hsecond : byteAt b (n + 1) = byteAt (b.drop n) 1 := (byteAt_drop b n 1).symm
  have hlength : 2 ≤ (b.drop n).length := by
    rw [List.length_drop]
    omega
  rw [hfirst, hsecond, word16]
  cases hfront : b.drop n with
  | nil => simp [hfront] at hlength
  | cons high behind =>
    cases behind with
    | nil => simp [hfront] at hlength
    | cons low rest => exact toNat_or_word16 high low

/-- A word is zero when both of its bytes are. -/
theorem word16_eq_zero_iff {b : Bytes} {n : Nat} (h : n + 2 ≤ b.length) :
    word16 b n = 0 ↔ byteAt b n = 0 ∧ byteAt b (n + 1) = 0 := by
  rw [← UInt16.toNat_inj, toNat_word16 h, ← UInt8.toNat_inj, ← UInt8.toNat_inj]
  show _ = 0 ↔ _ = 0 ∧ _ = 0
  omega

end Bytes

/-- An address is read from as many bytes as it has. -/
theorem Octets.bytes_ofBytes_slice {n : Nat} {b : Bytes} {i j k : Nat}
    (h : i + k + n ≤ j) (hlength : j ≤ b.length) :
    (Octets.ofBytes n ((b.slice i j).drop k)).bytes =
      b.slice (i + k) (i + k + n) := by
  have hpart : (b.slice i j).length = j - i := Bytes.length_slice hlength
  rw [Octets.bytes_ofBytes (by rw [List.length_drop]; omega)]
  have hslice := Bytes.slice_slice b (i := i) (j := j) (k := k)
    (l := k + n) (by omega)
  rw [Bytes.slice, Nat.add_sub_cancel_left, ← Nat.add_assoc] at hslice
  exact hslice

namespace Endpoint

/-! ## The Ethernet header -/

/-- The Ethernet header at the front of a frame. -/
def ethernetAt (frame : Bytes) : EthernetHeader := Header.decode (frame.slice 0 14)

theorem readFront_ethernetAt (frame : Bytes) :
    Reader.readFront EthernetHeader frame =
      if 14 ≤ frame.length then .ok (ethernetAt frame) else .error ⟨0, 14, frame.length⟩ :=
  Reader.readFront_eq frame

theorem etherType_ethernetAt {frame : Bytes} (h : 14 ≤ frame.length) :
    (ethernetAt frame).etherType = frame.word16 12 :=
  (Bytes.word16_slice (i := 0) (n := 12) (by omega) h).trans (by rw [Nat.zero_add])

theorem bytes_source_ethernetAt {frame : Bytes} (h : 14 ≤ frame.length) :
    (ethernetAt frame).source.bytes = frame.slice 6 12 :=
  Octets.bytes_ofBytes_slice (n := 6) (i := 0) (k := 6) (by omega) h

/-! ## The IPv4 header -/

/-- The IPv4 header that stands behind a frame's Ethernet header. -/
def ipv4At (frame : Bytes) : Ipv4Header := Header.decode (frame.slice 14 34)

section Ipv4

variable {frame : Bytes}

theorem versionLength_ipv4At (frame : Bytes) : (ipv4At frame).versionLength = frame.byteAt 14 :=
  Bytes.byteAt_slice (b := frame) (i := 14) (j := 34) (n := 0) (by omega)

theorem totalLength_ipv4At (h : 34 ≤ frame.length) :
    (ipv4At frame).totalLength = frame.word16 16 :=
  Bytes.word16_slice (i := 14) (n := 2) (by omega) h

theorem fragment_ipv4At (h : 34 ≤ frame.length) : (ipv4At frame).fragment = frame.word16 20 :=
  Bytes.word16_slice (i := 14) (n := 6) (by omega) h

theorem protocol_ipv4At (frame : Bytes) : (ipv4At frame).protocol = frame.byteAt 23 :=
  Bytes.byteAt_slice (b := frame) (i := 14) (j := 34) (n := 9) (by omega)

theorem bytes_source_ipv4At (h : 34 ≤ frame.length) :
    (ipv4At frame).source.bytes = frame.slice 26 30 :=
  Octets.bytes_ofBytes_slice (n := 4) (i := 14) (k := 12) (by omega) h

theorem bytes_target_ipv4At (h : 34 ≤ frame.length) :
    (ipv4At frame).target.bytes = frame.slice 30 34 :=
  Octets.bytes_ofBytes_slice (n := 4) (i := 14) (k := 16) (by omega) h

end Ipv4

/-! ## The ARP packet -/

/-- The ARP packet that stands behind a frame's Ethernet header. -/
def arpAt (frame : Bytes) : ArpPacket := Header.decode (frame.slice 14 42)

section Arp

variable {frame : Bytes}

theorem read_arpAt (frame : Bytes) :
    (Reader.read ArpPacket).result ⟨frame, ipv4Start⟩ =
      if 42 ≤ frame.length then .ok (arpAt frame)
      else .error ⟨14, 28, frame.length - 14⟩ := by
  have hsize : Header.size ArpPacket = 28 := rfl
  have hstart : ipv4Start = 14 := rfl
  rw [Reader.result_read_eq, hsize, hstart]
  by_cases h : 42 ≤ frame.length
  · rw [if_pos h, if_pos (by omega)]
    rfl
  · rw [if_neg h, if_neg (by omega)]

theorem hardwareType_arpAt (h : 42 ≤ frame.length) :
    (arpAt frame).hardwareType = frame.word16 14 :=
  Bytes.word16_slice (i := 14) (n := 0) (by omega) h

theorem protocolType_arpAt (h : 42 ≤ frame.length) :
    (arpAt frame).protocolType = frame.word16 16 :=
  Bytes.word16_slice (i := 14) (n := 2) (by omega) h

theorem hardwareLength_arpAt (frame : Bytes) : (arpAt frame).hardwareLength = frame.byteAt 18 :=
  Bytes.byteAt_slice (b := frame) (i := 14) (j := 42) (n := 4) (by omega)

theorem protocolLength_arpAt (frame : Bytes) : (arpAt frame).protocolLength = frame.byteAt 19 :=
  Bytes.byteAt_slice (b := frame) (i := 14) (j := 42) (n := 5) (by omega)

theorem opcode_arpAt (h : 42 ≤ frame.length) : (arpAt frame).opcode = frame.word16 20 :=
  Bytes.word16_slice (i := 14) (n := 6) (by omega) h

theorem bytes_senderMac_arpAt (h : 42 ≤ frame.length) :
    (arpAt frame).senderMac.bytes = frame.slice 22 28 :=
  Octets.bytes_ofBytes_slice (n := 6) (i := 14) (k := 8) (by omega) h

theorem bytes_senderIp_arpAt (h : 42 ≤ frame.length) :
    (arpAt frame).senderIp.bytes = frame.slice 28 32 :=
  Octets.bytes_ofBytes_slice (n := 4) (i := 14) (k := 14) (by omega) h

theorem bytes_targetIp_arpAt (h : 42 ≤ frame.length) :
    (arpAt frame).targetIp.bytes = frame.slice 38 42 :=
  Octets.bytes_ofBytes_slice (n := 4) (i := 14) (k := 24) (by omega) h

end Arp

end Endpoint

/-- Two addresses with the same bytes are the same. -/
theorem Ipv4Address.bytes_inj {a b : Ipv4Address} : a.bytes = b.bytes ↔ a = b := by
  constructor
  · intro h
    cases a
    cases b
    exact congrArg Ipv4Address.mk (Octets.ext_bytes h)
  · exact congrArg Ipv4Address.bytes

end RomCast
