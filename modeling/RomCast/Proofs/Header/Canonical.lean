import RomCast.Proofs.Bytes.Overwrite
import RomCast.Proofs.Header.Lawful
import RomCast.Proofs.ModuleName

set_option autoImplicit false

/-!
# Headers are written back as they were read

A header has one layout only: encoding what was decoded gives the same bytes again
(`CanonicalHeader`).  For a name this holds as long as its field has nothing behind the zero byte
that ends the name (`toField_of_ofField`), since reading a name ends there.
-/

namespace RomCast

namespace Bytes

/-! ## Words -/

/-- The bytes that a word was read from. -/
theorem ofWord16_word16 {b : Bytes} {n : Nat} (h : n + 2 ≤ b.length) :
    ofWord16 (b.word16 n) = (b.drop n).take 2 := by
  have hlength : 2 ≤ (b.drop n).length := by
    rw [List.length_drop]
    omega
  rw [word16]
  cases hdrop : b.drop n with
  | nil => simp [hdrop] at hlength
  | cons high more =>
    cases more with
    | nil => simp [hdrop] at hlength
    | cons low rest =>
      have hhigh : high.toNat < 256 := high.toNat_lt
      have hlow : low.toNat < 256 := low.toNat_lt
      have hword := toNat_or_word16 high low
      have hfirst : ((high.toUInt16 <<< 8 ||| low.toUInt16) >>> 8).toUInt8 = high := by
        apply UInt8.toNat_inj.mp
        rw [UInt16.toNat_toUInt8, UInt16.toNat_shiftRight, hword]
        show (high.toNat * 256 + low.toNat) >>> 8 % 256 = high.toNat
        rw [Nat.shiftRight_eq_div_pow]
        omega
      have hsecond : (high.toUInt16 <<< 8 ||| low.toUInt16).toUInt8 = low := by
        apply UInt8.toNat_inj.mp
        rw [UInt16.toNat_toUInt8, hword]
        omega
      simp only [ofWord16, hfirst, hsecond, List.take_succ_cons, List.take_zero]

theorem ofWord16_word16_slice {b : Bytes} {n : Nat} (h : n + 2 ≤ b.length) :
    ofWord16 (b.word16 n) = b.slice n (n + 2) := by
  rw [ofWord16_word16 h, slice, Nat.add_sub_cancel_left]

theorem pair_byteAt {b : Bytes} {n : Nat} (h : n + 2 ≤ b.length) :
    [b.byteAt n, b.byteAt (n + 1)] = b.slice n (n + 2) := by
  have hfirst : b.drop n = b[n] :: b.drop (n + 1) := List.drop_eq_getElem_cons (by omega)
  have hsecond : b.drop (n + 1) = b[n + 1] :: b.drop (n + 1 + 1) :=
    List.drop_eq_getElem_cons (by omega)
  rw [slice, Nat.add_sub_cancel_left, hfirst, hsecond, byteAt, byteAt,
    List.getElem?_eq_getElem (by omega), List.getElem?_eq_getElem (by omega)]
  rfl

/-- A word of four bytes is two of two bytes. -/
theorem ofWord32_word32 (b : Bytes) (n : Nat) :
    ofWord32 (b.word32 n) = ofWord16 (b.word16 n) ++ ofWord16 (b.word16 (n + 2)) := by
  have hhigh : (b.word16 n).toNat < 65536 := UInt16.toNat_lt _
  have hlow : (b.word16 (n + 2)).toNat < 65536 := UInt16.toNat_lt _
  have hword := toNat_word32 b n
  have hfirst : (b.word32 n >>> 24).toUInt8 = (b.word16 n >>> 8).toUInt8 := by
    apply UInt8.toNat_inj.mp
    rw [UInt32.toNat_toUInt8, UInt32.toNat_shiftRight, UInt16.toNat_toUInt8,
      UInt16.toNat_shiftRight, hword, Nat.shiftRight_eq_div_pow, Nat.shiftRight_eq_div_pow]
    show _ / 16777216 % 256 = _ / 256 % 256
    omega
  have hsecond : (b.word32 n >>> 16).toUInt8 = (b.word16 n).toUInt8 := by
    apply UInt8.toNat_inj.mp
    rw [UInt32.toNat_toUInt8, UInt32.toNat_shiftRight, UInt16.toNat_toUInt8, hword,
      Nat.shiftRight_eq_div_pow]
    show _ / 65536 % 256 = _ % 256
    omega
  have hthird : (b.word32 n >>> 8).toUInt8 = (b.word16 (n + 2) >>> 8).toUInt8 := by
    apply UInt8.toNat_inj.mp
    rw [UInt32.toNat_toUInt8, UInt32.toNat_shiftRight, UInt16.toNat_toUInt8,
      UInt16.toNat_shiftRight, hword, Nat.shiftRight_eq_div_pow, Nat.shiftRight_eq_div_pow]
    show _ / 256 % 256 = _ / 256 % 256
    omega
  have hfourth : (b.word32 n).toUInt8 = (b.word16 (n + 2)).toUInt8 := by
    apply UInt8.toNat_inj.mp
    rw [UInt32.toNat_toUInt8, UInt16.toNat_toUInt8, hword]
    omega
  simp only [ofWord32, ofWord16, hfirst, hsecond, hthird, hfourth, List.cons_append,
    List.nil_append]

/-- The bytes that a word of four bytes was read from. -/
theorem ofWord32_word32_eq {b : Bytes} {n : Nat} (h : n + 4 ≤ b.length) :
    ofWord32 (b.word32 n) = (b.drop n).take 4 := by
  have hsplit := List.take_add (l := b.drop n) (i := 2) (j := 2)
  rw [List.drop_drop] at hsplit
  rw [ofWord32_word32, ofWord16_word16 (by omega), ofWord16_word16 (by omega)]
  exact hsplit.symm

/-! ## Texts in fields -/

/-- Whether a byte string holds nothing but zeros behind its first zero byte. -/
def Padded (b : Bytes) : Prop :=
  ∀ i j : Nat, i < j → j < b.length → b.byteAt i = 0 → b.byteAt j = 0

/-- Such a byte string is what stands before the first zero byte, filled up with zeros. -/
theorem Padded.eq_untilNul {b : Bytes} (h : b.Padded) :
    b = b.untilNul ++ zeros (b.length - b.untilNul.length) := by
  induction b with
  | nil => rfl
  | cons first rest ih =>
    by_cases hzero : first = 0
    · -- Here everything is zero.
      have hrest : ∀ byte ∈ rest, byte = 0 := by
        intro byte hbyte
        obtain ⟨j, hj, rfl⟩ := List.getElem_of_mem hbyte
        have hat := h 0 (j + 1) (Nat.succ_pos j) (by simpa using hj) hzero
        rwa [byteAt, List.getElem?_cons_succ, List.getElem?_eq_getElem hj] at hat
      have hnone : untilNul (first :: rest) = [] := by simp [untilNul, hzero]
      rw [hnone, List.nil_append, List.length_nil, Nat.sub_zero, hzero]
      exact List.eq_replicate_of_mem fun byte hbyte =>
        (List.mem_cons.mp hbyte).elim id (hrest byte)
    · have hmore : untilNul (first :: rest) = first :: untilNul rest := by
        simp [untilNul, hzero]
      have hpadded : Padded rest := fun i j hij hj hi =>
        h (i + 1) (j + 1) (Nat.succ_lt_succ hij) (Nat.succ_lt_succ hj) hi
      rw [hmore, List.cons_append, List.length_cons, List.length_cons, Nat.add_sub_add_right,
        ← ih hpadded]

end Bytes

namespace Text

/-- The bytes that a text was read from. -/
theorem utf8_of_decode? {bytes : Bytes} {text : String} (h : decode? bytes = some text) :
    utf8 text = bytes := by
  unfold decode? String.fromUTF8? at h
  split at h
  · obtain rfl := Option.some.inj h
    rw [utf8, toList_eq_data]
    rfl
  · cases h

end Text

namespace ModuleName

/-- The name that a field holds is what stands before the field's first zero byte. -/
theorem utf8_of_ofField {field : Octets 64} {name : ModuleName} (h : ofField field = .ok name) :
    Text.utf8 name.text = field.bytes.untilNul := by
  unfold ofField at h
  dsimp only at h
  split at h
  · cases h
  · split at h
    · rename_i text hdecode
      have htext : text = name.text := by
        unfold ofText at h
        split at h
        · cases h
          rfl
        · cases h
      rw [← htext]
      exact Text.utf8_of_decode? hdecode
    · cases h

/-- A name is written back into the field that it was read from. -/
theorem toField_of_ofField {field : Octets 64} {name : ModuleName} (h : ofField field = .ok name)
    (hpadded : field.bytes.Padded) : name.toField = field := by
  apply Octets.ext_bytes
  have hwhole := hpadded.eq_untilNul
  have hlength : field.bytes.untilNul.length ≤ 64 := by
    have htotal := congrArg List.length hwhole
    rw [List.length_append, field.length_bytes] at htotal
    omega
  show Bytes.resize (Text.utf8 name.text) 64 = field.bytes
  rw [utf8_of_ofField h, Bytes.resize, List.take_of_length_le hlength]
  rw [field.length_bytes] at hwhole
  exact hwhole.symm

end ModuleName

/-! ## Headers -/

theorem Octets.bytes_ofBytes {n : Nat} {b : Bytes} (h : n ≤ b.length) :
    (Octets.ofBytes n b).bytes = b.take n := by
  show b.resize n = b.take n
  rw [Bytes.resize, List.length_take, Nat.min_eq_left h, Nat.sub_self]
  exact List.append_nil _

theorem EthernetHeader.encode_decode {b : Bytes} (h : b.length = Header.size EthernetHeader) :
    Header.encode (Header.decode b : EthernetHeader) = b := by
  have hsize : b.length = 14 := h
  show (Octets.ofBytes 6 b).bytes ++ ((Octets.ofBytes 6 (b.drop 6)).bytes ++
    Bytes.ofWord16 (b.word16 12)) = b
  rw [Octets.bytes_ofBytes (by omega), Octets.bytes_ofBytes (by rw [List.length_drop]; omega),
    Bytes.ofWord16_word16_slice (by omega)]
  show b.slice 0 6 ++ (b.slice 6 12 ++ b.slice 12 14) = b
  rw [Bytes.slice_append_slice b (by omega) (by omega),
    Bytes.slice_append_slice b (by omega) (by omega)]
  exact List.take_of_length_le (Nat.le_of_eq hsize)

theorem ArpPacket.encode_decode {b : Bytes} (h : b.length = Header.size ArpPacket) :
    Header.encode (Header.decode b : ArpPacket) = b := by
  have hsize : b.length = 28 := h
  have hwithin {n m : Nat} (hle : m + n ≤ 28) : n ≤ (b.drop m).length := by
    rw [List.length_drop, hsize]
    omega
  show Bytes.ofWord16 (b.word16 0) ++ (Bytes.ofWord16 (b.word16 2) ++
    ([b.byteAt 4, b.byteAt 5] ++ (Bytes.ofWord16 (b.word16 6) ++
      ((Octets.ofBytes 6 (b.drop 8)).bytes ++ ((Octets.ofBytes 4 (b.drop 14)).bytes ++
        ((Octets.ofBytes 6 (b.drop 18)).bytes ++ (Octets.ofBytes 4 (b.drop 24)).bytes)))))) = b
  rw [Octets.bytes_ofBytes (hwithin (by decide)), Octets.bytes_ofBytes (hwithin (by decide)),
    Octets.bytes_ofBytes (hwithin (by decide)), Octets.bytes_ofBytes (hwithin (by decide)),
    Bytes.ofWord16_word16_slice (by omega), Bytes.ofWord16_word16_slice (by omega),
    Bytes.ofWord16_word16_slice (by omega), Bytes.pair_byteAt (by omega)]
  show b.slice 0 2 ++ (b.slice 2 4 ++ (b.slice 4 6 ++ (b.slice 6 8 ++ (b.slice 8 14 ++
    (b.slice 14 18 ++ (b.slice 18 24 ++ b.slice 24 28)))))) = b
  rw [Bytes.slice_append_slice b (by omega) (by omega),
    Bytes.slice_append_slice b (by omega) (by omega),
    Bytes.slice_append_slice b (by omega) (by omega),
    Bytes.slice_append_slice b (by omega) (by omega),
    Bytes.slice_append_slice b (by omega) (by omega),
    Bytes.slice_append_slice b (by omega) (by omega),
    Bytes.slice_append_slice b (by omega) (by omega)]
  exact List.take_of_length_le (Nat.le_of_eq hsize)

theorem Ipv4Header.encode_decode {b : Bytes} (h : b.length = Header.size Ipv4Header) :
    Header.encode (Header.decode b : Ipv4Header) = b := by
  have hsize : b.length = 20 := h
  have hwithin {n m : Nat} (hle : m + n ≤ 20) : n ≤ (b.drop m).length := by
    rw [List.length_drop, hsize]
    omega
  show [b.byteAt 0, b.byteAt 1] ++ (Bytes.ofWord16 (b.word16 2) ++
    (Bytes.ofWord16 (b.word16 4) ++ (Bytes.ofWord16 (b.word16 6) ++
      ([b.byteAt 8, b.byteAt 9] ++ (Bytes.ofWord16 (b.word16 10) ++
        ((Octets.ofBytes 4 (b.drop 12)).bytes ++ (Octets.ofBytes 4 (b.drop 16)).bytes)))))) = b
  rw [Octets.bytes_ofBytes (hwithin (by decide)), Octets.bytes_ofBytes (hwithin (by decide)),
    Bytes.ofWord16_word16_slice (by omega), Bytes.ofWord16_word16_slice (by omega),
    Bytes.ofWord16_word16_slice (by omega), Bytes.ofWord16_word16_slice (by omega),
    Bytes.pair_byteAt (by omega), Bytes.pair_byteAt (by omega)]
  show b.slice 0 2 ++ (b.slice 2 4 ++ (b.slice 4 6 ++ (b.slice 6 8 ++ (b.slice 8 10 ++
    (b.slice 10 12 ++ (b.slice 12 16 ++ b.slice 16 20)))))) = b
  rw [Bytes.slice_append_slice b (by omega) (by omega),
    Bytes.slice_append_slice b (by omega) (by omega),
    Bytes.slice_append_slice b (by omega) (by omega),
    Bytes.slice_append_slice b (by omega) (by omega),
    Bytes.slice_append_slice b (by omega) (by omega),
    Bytes.slice_append_slice b (by omega) (by omega),
    Bytes.slice_append_slice b (by omega) (by omega)]
  exact List.take_of_length_le (Nat.le_of_eq hsize)

theorem UdpHeader.encode_decode {b : Bytes} (h : b.length = Header.size UdpHeader) :
    Header.encode (Header.decode b : UdpHeader) = b := by
  have hsize : b.length = 8 := h
  show Bytes.ofWord16 (b.word16 0) ++ (Bytes.ofWord16 (b.word16 2) ++
    (Bytes.ofWord16 (b.word16 4) ++ Bytes.ofWord16 (b.word16 6))) = b
  rw [Bytes.ofWord16_word16_slice (by omega), Bytes.ofWord16_word16_slice (by omega),
    Bytes.ofWord16_word16_slice (by omega), Bytes.ofWord16_word16_slice (by omega)]
  rw [Bytes.slice_append_slice b (by omega) (by omega),
    Bytes.slice_append_slice b (by omega) (by omega),
    Bytes.slice_append_slice b (by omega) (by omega)]
  exact List.take_of_length_le (Nat.le_of_eq hsize)

/-- The header of a packet as it was read. -/
theorem PacketHeader.encode_decode {b : Bytes} (h : b.length = Header.size PacketHeader) :
    Header.encode (Header.decode b : PacketHeader) = b := by
  have hsize : b.length = 100 := h
  show (Octets.ofBytes 64 b).bytes ++ ((Octets.ofBytes 32 (b.drop 64)).bytes ++
    Bytes.ofWord32 (b.word32 96)) = b
  rw [Octets.bytes_ofBytes (by omega), Octets.bytes_ofBytes (by rw [List.length_drop]; omega),
    Bytes.ofWord32_word32_eq (by omega)]
  have hlast : (b.drop 96).take 4 = b.drop 96 :=
    List.take_of_length_le (by rw [List.length_drop]; omega)
  have hhash : (b.drop 64).take 32 ++ b.drop 96 = b.drop 64 := by
    rw [show b.drop 96 = (b.drop 64).drop 32 by rw [List.drop_drop], List.take_append_drop]
  rw [hlast, hhash, List.take_append_drop]

/-- The header of a fragment as it was read. -/
theorem FragmentHeader.encode_decode {b : Bytes} (h : b.length = Header.size FragmentHeader) :
    Header.encode (Header.decode b : FragmentHeader) = b := by
  have hsize : b.length = 10 := h
  show Bytes.ofWord32 (b.word32 0) ++ (Bytes.ofWord32 (b.word32 4) ++
    Bytes.ofWord16 (b.word16 8)) = b
  rw [Bytes.ofWord32_word32_eq (by omega), Bytes.ofWord32_word32_eq (by omega),
    Bytes.ofWord16_word16 (by omega)]
  have hlast : (b.drop 8).take 2 = b.drop 8 :=
    List.take_of_length_le (by rw [List.length_drop]; omega)
  have hoffset : (b.drop 4).take 4 ++ b.drop 8 = b.drop 4 := by
    rw [show b.drop 8 = (b.drop 4).drop 4 by rw [List.drop_drop], List.take_append_drop]
  rw [hlast, hoffset, List.drop_zero, List.take_append_drop]

/-- A layout that takes every byte it is read from into account. -/
class CanonicalHeader (α : Type) [Header α] : Prop where
  encode_decode : ∀ b : Bytes, b.length = Header.size α → Header.encode (Header.decode b : α) = b

instance : CanonicalHeader EthernetHeader := ⟨fun _ => EthernetHeader.encode_decode⟩

instance : CanonicalHeader ArpPacket := ⟨fun _ => ArpPacket.encode_decode⟩

instance : CanonicalHeader Ipv4Header := ⟨fun _ => Ipv4Header.encode_decode⟩

instance : CanonicalHeader UdpHeader := ⟨fun _ => UdpHeader.encode_decode⟩

instance : CanonicalHeader PacketHeader := ⟨fun _ => PacketHeader.encode_decode⟩

instance : CanonicalHeader FragmentHeader := ⟨fun _ => FragmentHeader.encode_decode⟩

end RomCast
