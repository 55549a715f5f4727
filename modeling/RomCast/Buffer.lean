import RomCast.Bytes

set_option autoImplicit false

/-!
# Buffers

A buffer collects content that arrives in pieces.  Its bytes lie side by side in memory, so that
writing a piece costs no more than the piece is long, however large the buffer is.  What a buffer
holds is the byte string `Buffer.toList`; through that view each operation is the one on byte
strings.
-/

namespace RomCast

/-- A byte string that pieces are written into. -/
structure Buffer where
  store : ByteArray

namespace Buffer

/-- A buffer without bytes. -/
def empty : Buffer := ⟨ByteArray.empty⟩

instance : Inhabited Buffer := ⟨empty⟩

/-- What the buffer holds. -/
def toList (b : Buffer) : Bytes := b.store.data.toList

/-- How many bytes the buffer has. -/
def size (b : Buffer) : Nat := b.store.size

/-- Cut to `n` bytes, or extend to `n` bytes with zeros. -/
def resize (b : Buffer) (n : Nat) : Buffer :=
  ⟨b.store.extract 0 n ++ (Bytes.zeros (n - b.size)).toByteArray⟩

/-- Write `new` over the bytes from position `start` on.  What does not fit is left out. -/
def overwrite (b : Buffer) (start : Nat) (new : Bytes) : Buffer :=
  if b.size ≤ start then b
  else
    let fitting := (new.take (b.size - start)).toByteArray
    ⟨fitting.copySlice 0 b.store start fitting.size⟩

@[simp] theorem toList_empty : empty.toList = [] := rfl

@[simp] theorem length_toList (b : Buffer) : b.toList.length = b.size := Array.length_toList

@[simp] theorem toList_resize (b : Buffer) (n : Nat) :
    (b.resize n).toList = b.toList.resize n := by
  have hb : b.store.data.toList.length = b.store.size := Array.length_toList
  simp only [toList, resize, size, Bytes.resize, ByteArray.data_append, ByteArray.data_extract,
    List.data_toByteArray, Array.toList_append, Array.toList_extract, List.extract_eq_take_drop,
    List.drop_zero, Nat.sub_zero, List.length_take, hb]
  congr 2
  omega

@[simp] theorem toList_overwrite (b : Buffer) (start : Nat) (new : Bytes) :
    (b.overwrite start new).toList = b.toList.overwrite start new := by
  have hb : b.store.data.toList.length = b.store.size := Array.length_toList
  have hs : b.store.data.size = b.store.size := rfl
  by_cases h : b.store.size ≤ start
  · have hn : b.store.size - start = 0 := Nat.sub_eq_zero_of_le h
    simp only [overwrite, size, if_pos h, toList, Bytes.overwrite, hb, hn, List.take_zero,
      List.nil_append]
    rw [List.take_of_length_le (by omega), List.drop_of_length_le (by omega), List.append_nil]
  · have hl : (List.take (b.store.size - start) new).length ≤ b.store.size - start :=
      List.length_take_le ..
    simp only [overwrite, size, if_neg h, toList, Bytes.overwrite, ByteArray.copySlice, hb,
      List.data_toByteArray, List.size_toByteArray, Array.toList_append, Array.toList_extract,
      List.extract_eq_take_drop, List.drop_zero, Nat.sub_zero, Nat.zero_add, List.take_length,
      List.size_toArray, Nat.min_self, hs, List.append_assoc]
    congr 2
    rw [List.take_of_length_le (by simp only [List.length_drop, hb]; omega)]
    simp only [List.length_take]
    by_cases hn : new.length ≤ b.store.size - start
    · rw [Nat.min_eq_right hn]
    · rw [Nat.min_eq_left (by omega), List.drop_of_length_le (by omega),
        List.drop_of_length_le (by omega)]

end Buffer

end RomCast
