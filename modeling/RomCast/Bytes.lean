set_option autoImplicit false

/-!
# Byte strings

Frames, packets and module contents are finite byte strings.  A buffer is a byte string whose
length is fixed while its bytes change: `Bytes.overwrite` is the only way to change bytes in place,
and it keeps the length.  `Bytes.resize` is the one operation that changes a buffer's length.
-/

namespace RomCast

/-- A finite byte string. -/
abbrev Bytes : Type := List UInt8

namespace Bytes

/-- `n` zero bytes. -/
def zeros (n : Nat) : Bytes := List.replicate n 0

/-- Write `new` over the bytes of `buffer` from position `start` on.  What does not fit is left
out, so that the buffer keeps its length. -/
def overwrite (buffer : Bytes) (start : Nat) (new : Bytes) : Bytes :=
  buffer.take start ++ (new.take (buffer.length - start) ++ buffer.drop (start + new.length))

/-- Cut to `n` bytes, or extend to `n` bytes with zeros. -/
def resize (buffer : Bytes) (n : Nat) : Bytes :=
  let kept := buffer.take n
  kept ++ zeros (n - kept.length)

/-- The bytes at positions `start`, ..., `stop - 1`. -/
def slice (bytes : Bytes) (start stop : Nat) : Bytes := (bytes.drop start).take (stop - start)

/-- The bytes before the first zero byte. -/
def untilNul (bytes : Bytes) : Bytes := bytes.takeWhile (· ≠ 0)

@[simp] theorem length_zeros (n : Nat) : (zeros n).length = n := List.length_replicate

@[simp] theorem length_overwrite (buffer : Bytes) (start : Nat) (new : Bytes) :
    (overwrite buffer start new).length = buffer.length := by
  simp only [overwrite, List.length_append, List.length_take, List.length_drop]
  omega

@[simp] theorem length_resize (buffer : Bytes) (n : Nat) : (resize buffer n).length = n := by
  simp only [resize, List.length_append, List.length_take, length_zeros]
  omega

@[simp] theorem overwrite_nil (buffer : Bytes) (start : Nat) :
    overwrite buffer start [] = buffer := by
  simp [overwrite]

/-! ## Big-endian words -/

/-- The two bytes of a 16-bit word, the high one first. -/
def ofWord16 (w : UInt16) : Bytes := [(w >>> 8).toUInt8, w.toUInt8]

/-- The four bytes of a 32-bit word, the highest first. -/
def ofWord32 (w : UInt32) : Bytes :=
  [(w >>> 24).toUInt8, (w >>> 16).toUInt8, (w >>> 8).toUInt8, w.toUInt8]

/-- The 16-bit word that starts at position `start`; bytes past the end count as zero. -/
def word16 (bytes : Bytes) (start : Nat) : UInt16 :=
  match bytes.drop start with
  | high :: low :: _ => high.toUInt16 <<< 8 ||| low.toUInt16
  | [high] => high.toUInt16 <<< 8
  | [] => 0

/-- The 32-bit word that starts at position `start`; bytes past the end count as zero. -/
def word32 (bytes : Bytes) (start : Nat) : UInt32 :=
  (word16 bytes start).toUInt32 <<< 16 ||| (word16 bytes (start + 2)).toUInt32

@[simp] theorem length_ofWord16 (w : UInt16) : (ofWord16 w).length = 2 := by
  simp [ofWord16]

@[simp] theorem length_ofWord32 (w : UInt32) : (ofWord32 w).length = 4 := by
  simp [ofWord32]

/-- The byte at a position; bytes past the end count as zero. -/
def byteAt (bytes : Bytes) (i : Nat) : UInt8 := bytes[i]?.getD 0

end Bytes

/-! ## Byte strings of a fixed length -/

/-- A byte string of exactly `n` bytes: an address, a hash, a padded name. -/
structure Octets (n : Nat) where
  bytes : Bytes
  length_eq : bytes.length = n
  deriving DecidableEq

namespace Octets

variable {n : Nat}

/-- The first `n` bytes of a byte string, filled with zeros when it is shorter. -/
def ofBytes (n : Nat) (bytes : Bytes) : Octets n := ⟨bytes.resize n, Bytes.length_resize bytes n⟩

/-- `n` equal bytes. -/
def fill (n : Nat) (b : UInt8) : Octets n := ⟨List.replicate n b, List.length_replicate⟩

/-- `n` zero bytes. -/
def zero (n : Nat) : Octets n := fill n 0

instance : Inhabited (Octets n) := ⟨zero n⟩

@[simp] theorem length_bytes (x : Octets n) : x.bytes.length = n := x.length_eq

theorem ext_bytes {x y : Octets n} (h : x.bytes = y.bytes) : x = y := by
  cases x; cases y; cases h; rfl

end Octets

end RomCast
