import RomCast.Bytes

set_option autoImplicit false

/-!
# Words in byte strings

What was written as a big-endian word is read back as that word, wherever it stands.  A read behind
a prefix is a read of what follows the prefix.
-/

namespace RomCast

namespace Bytes

/-! ## Reading back -/

/-- Two bytes as a number, whatever the width that they are put together in. -/
theorem shiftLeft_or (high low : UInt8) {width : Nat} (hwidth : 65536 ≤ width) :
    high.toNat <<< 8 % width ||| low.toNat = high.toNat * 256 + low.toNat := by
  have hhigh : high.toNat < 256 := high.toNat_lt
  have hlow : low.toNat < 2 ^ 8 := low.toNat_lt
  have hshift : high.toNat <<< 8 < width := by
    rw [Nat.shiftLeft_eq]
    omega
  rw [Nat.mod_eq_of_lt hshift, ← Nat.shiftLeft_add_eq_or_of_lt hlow, Nat.shiftLeft_eq]

theorem toNat_or_word16 (high low : UInt8) :
    (high.toUInt16 <<< 8 ||| low.toUInt16).toNat = high.toNat * 256 + low.toNat := by
  rw [UInt16.toNat_or, UInt16.toNat_shiftLeft, UInt8.toNat_toUInt16, UInt8.toNat_toUInt16]
  exact shiftLeft_or high low (Nat.le_refl _)

theorem word16_ofWord16_append (w : UInt16) (rest : Bytes) :
    word16 (ofWord16 w ++ rest) 0 = w := by
  apply UInt16.toNat_inj.mp
  show ((w >>> 8).toUInt8.toUInt16 <<< 8 ||| w.toUInt8.toUInt16).toNat = w.toNat
  have hw : w.toNat < 65536 := w.toNat_lt
  rw [toNat_or_word16]
  simp only [UInt16.toNat_toUInt8, UInt16.toNat_shiftRight]
  show w.toNat >>> 8 % 256 * 256 + w.toNat % 256 = w.toNat
  rw [Nat.shiftRight_eq_div_pow]
  omega

theorem toNat_word32 (b : Bytes) (n : Nat) :
    (word32 b n).toNat = (word16 b n).toNat * 65536 + (word16 b (n + 2)).toNat := by
  have hhigh : (word16 b n).toNat < 65536 := UInt16.toNat_lt _
  have hlow : (word16 b (n + 2)).toNat < 2 ^ 16 := UInt16.toNat_lt _
  rw [word32, UInt32.toNat_or, UInt32.toNat_shiftLeft, UInt16.toNat_toUInt32, UInt16.toNat_toUInt32]
  have hshift : (word16 b n).toNat <<< ((16 : UInt32).toNat % 32) % 2 ^ 32 =
      (word16 b n).toNat <<< 16 := by
    rw [Nat.mod_eq_of_lt]
    · rfl
    · show (word16 b n).toNat <<< 16 < 2 ^ 32
      rw [Nat.shiftLeft_eq]
      omega
  rw [hshift, ← Nat.shiftLeft_add_eq_or_of_lt hlow, Nat.shiftLeft_eq]

theorem word32_ofWord32_append (w : UInt32) (rest : Bytes) :
    word32 (ofWord32 w ++ rest) 0 = w := by
  apply UInt32.toNat_inj.mp
  rw [toNat_word32]
  show ((w >>> 24).toUInt8.toUInt16 <<< 8 ||| (w >>> 16).toUInt8.toUInt16).toNat * 65536 +
    ((w >>> 8).toUInt8.toUInt16 <<< 8 ||| w.toUInt8.toUInt16).toNat = w.toNat
  have hw : w.toNat < 4294967296 := w.toNat_lt
  rw [toNat_or_word16, toNat_or_word16]
  simp only [UInt32.toNat_toUInt8, UInt32.toNat_shiftRight]
  show (w.toNat >>> 24 % 256 * 256 + w.toNat >>> 16 % 256) * 65536 +
    (w.toNat >>> 8 % 256 * 256 + w.toNat % 256) = w.toNat
  rw [Nat.shiftRight_eq_div_pow, Nat.shiftRight_eq_div_pow, Nat.shiftRight_eq_div_pow]
  omega

/-! ## Reading behind a prefix -/

theorem drop_append_right {x : Bytes} {n : Nat} (h : x.length ≤ n) (y : Bytes) :
    (x ++ y).drop n = y.drop (n - x.length) := by
  rw [List.drop_append, List.drop_of_length_le h, List.nil_append]

theorem word16_append_right {x : Bytes} {n : Nat} (h : x.length ≤ n) (y : Bytes) :
    word16 (x ++ y) n = word16 y (n - x.length) := by
  rw [word16, word16, drop_append_right h]

theorem word32_append_right {x : Bytes} {n : Nat} (h : x.length ≤ n) (y : Bytes) :
    word32 (x ++ y) n = word32 y (n - x.length) := by
  rw [word32, word32, word16_append_right h, word16_append_right (by omega)]
  congr 3
  omega

theorem byteAt_append_right {x : Bytes} {n : Nat} (h : x.length ≤ n) (y : Bytes) :
    byteAt (x ++ y) n = byteAt y (n - x.length) := by
  rw [byteAt, byteAt, List.getElem?_append_right h]

@[simp] theorem byteAt_cons_zero (b : UInt8) (rest : Bytes) : byteAt (b :: rest) 0 = b := rfl

theorem byteAt_cons_succ (b : UInt8) (rest : Bytes) (n : Nat) :
    byteAt (b :: rest) (n + 1) = byteAt rest n := rfl

theorem word16_cons_succ (b : UInt8) (rest : Bytes) (n : Nat) :
    word16 (b :: rest) (n + 1) = word16 rest n := rfl

end Bytes

/-- Octets are found again at the front of a byte string. -/
theorem Octets.ofBytes_append {n : Nat} (x : Octets n) (rest : Bytes) :
    Octets.ofBytes n (x.bytes ++ rest) = x := by
  apply Octets.ext_bytes
  have htake : (x.bytes ++ rest).take n = x.bytes := by
    rw [List.take_append_of_le_length (by simp), List.take_of_length_le (by simp)]
  simp [Octets.ofBytes, Bytes.resize, htake, Bytes.zeros]

end RomCast
