import RomCast.Bytes

set_option autoImplicit false

/-!
# Overwriting a part

A byte string that is cut into three parts keeps the outer two when the inner one is overwritten by
as many bytes.  Byte by byte, a change is seen within the part that was written and nowhere else
(`getElem?_overwrite`, `SameOutside`).
-/

namespace RomCast.Bytes

/-- A byte string falls into its first bytes and the others. -/
theorem exists_split {n : Nat} {b : Bytes} (h : n ≤ b.length) :
    ∃ front back, b = front ++ back ∧ front.length = n := by
  refine ⟨b.take n, b.drop n, (List.take_append_drop n b).symm, ?_⟩
  rw [List.length_take, Nat.min_eq_left h]

/-- Overwriting the middle. -/
theorem overwrite_middle (front old back new : Bytes) (h : new.length = old.length) :
    overwrite (front ++ (old ++ back)) front.length new = front ++ (new ++ back) := by
  unfold overwrite
  rw [List.take_left, List.take_of_length_le, ← List.drop_drop, List.drop_left, h, List.drop_left]
  simp only [List.length_append]
  omega

/-- A shorter byte string at the front of a buffer. -/
theorem overwrite_zero_of_le {buffer new : Bytes} (h : new.length ≤ buffer.length) :
    overwrite buffer 0 new = new ++ buffer.drop new.length := by
  unfold overwrite
  rw [List.take_zero, List.nil_append, Nat.sub_zero, List.take_of_length_le h, Nat.zero_add]

theorem slice_middle (front part back : Bytes) :
    slice (front ++ (part ++ back)) front.length (front.length + part.length) = part := by
  rw [slice, List.drop_left, Nat.add_sub_cancel_left, List.take_left]

theorem take_min_length (b : Bytes) (n : Nat) : b.take (min b.length n) = b.take n := by
  rw [List.take_eq_take_iff]
  omega

/-- What was received into a buffer, up to the buffer's length. -/
theorem take_overwrite_zero (buffer new : Bytes) :
    (overwrite buffer 0 new).take (min new.length buffer.length) = new.take buffer.length := by
  unfold overwrite
  rw [List.take_zero, List.nil_append, Nat.sub_zero, List.take_append_of_le_length, List.take_take]
  · rw [Nat.min_eq_left (Nat.min_le_right ..), List.take_eq_take_iff]
    simp [Nat.min_comm]
  · exact Nat.le_of_eq (by rw [List.length_take, Nat.min_comm])

/-- What does not fit makes no difference. -/
theorem overwrite_zero_take_min (buffer new : Bytes) :
    overwrite buffer 0 (new.take (min new.length buffer.length)) = overwrite buffer 0 new := by
  rcases Nat.le_total new.length buffer.length with hshort | hlong
  · rw [Nat.min_eq_left hshort, List.take_length]
  · have htake : (new.take buffer.length).length = buffer.length := List.length_take_of_le hlong
    rw [Nat.min_eq_right hlong]
    unfold overwrite
    rw [Nat.sub_zero, List.take_take, Nat.min_self, htake,
      List.drop_of_length_le (Nat.le_of_eq (Nat.zero_add _).symm),
      List.drop_of_length_le (Nat.le_trans hlong (Nat.le_of_eq (Nat.zero_add _).symm))]

theorem overwrite_zero_take_length (buffer new : Bytes) :
    overwrite buffer 0 (new.take buffer.length) = overwrite buffer 0 new := by
  rw [← take_min_length, overwrite_zero_take_min]

/-- Writing behind some bytes leaves them. -/
theorem take_overwrite_of_le {n start : Nat} (h : n ≤ start) (buffer new : Bytes) :
    (buffer.overwrite start new).take n = buffer.take n := by
  by_cases hlength : n ≤ buffer.length
  · rw [overwrite, List.take_append_of_le_length, List.take_take, Nat.min_eq_left h]
    rw [List.length_take]
    omega
  · have hstart : buffer.take start = buffer := List.take_of_length_le (by omega)
    have hover : buffer.overwrite start new = buffer := by
      rw [overwrite, hstart, Nat.sub_eq_zero_of_le (by omega), List.take_zero,
        List.drop_eq_nil_of_le (by omega), List.append_nil, List.append_nil]
    rw [hover]

/-! ## Parts -/

theorem length_slice {b : Bytes} {i j : Nat} (h : j ≤ b.length) :
    (b.slice i j).length = j - i := by
  rw [slice, List.length_take, List.length_drop]
  omega

theorem slice_append_slice (b : Bytes) {start mid stop : Nat} (h : start ≤ mid)
    (h' : mid ≤ stop) : b.slice start mid ++ b.slice mid stop = b.slice start stop := by
  have hbehind : b.drop mid = (b.drop start).drop (mid - start) := by
    rw [List.drop_drop, Nat.add_sub_cancel' h]
  have hlength : stop - start = (mid - start) + (stop - mid) := by omega
  rw [slice, slice, slice, hbehind, hlength, List.take_add]

/-! ## Byte by byte -/

/-- A byte after a change: a new one within the part that was written, and the old one beside it. -/
theorem getElem?_overwrite (buffer new : Bytes) (start i : Nat) :
    (buffer.overwrite start new)[i]? =
      if start ≤ i ∧ i < start + new.length ∧ i < buffer.length then new[i - start]?
      else buffer[i]? := by
  rcases Nat.lt_or_ge i buffer.length with hwithin | hpast
  · have hfront : (buffer.take start).length = min start buffer.length := List.length_take
    unfold overwrite
    rcases Nat.lt_or_ge i start with hbefore | hbehind
    · rw [if_neg (by omega), List.getElem?_append_left (by omega),
        List.getElem?_take_of_lt hbefore]
    · rw [List.getElem?_append_right (by omega), hfront, Nat.min_eq_left (by omega)]
      grind
  · rw [if_neg (by omega), List.getElem?_eq_none hpast,
      List.getElem?_eq_none (by rwa [length_overwrite])]

/-- A byte that was written over. -/
theorem getElem?_overwrite_within {buffer new : Bytes} {start i : Nat}
    (hfits : start + new.length ≤ buffer.length) (hle : start ≤ i)
    (hlt : i < start + new.length) : (buffer.overwrite start new)[i]? = new[i - start]? := by
  rw [getElem?_overwrite, if_pos ⟨hle, hlt, by omega⟩]

/-- A byte beside what was written. -/
theorem getElem?_overwrite_outside {buffer new : Bytes} {start i : Nat}
    (hout : i < start ∨ start + new.length ≤ i) :
    (buffer.overwrite start new)[i]? = buffer[i]? := by
  rw [getElem?_overwrite, if_neg (by omega)]

/-- The part that was written holds what was written, as far as the buffer goes. -/
theorem slice_overwrite_self (buffer new : Bytes) (start : Nat) :
    (buffer.overwrite start new).slice start (start + new.length) =
      new.take (buffer.length - start) := by
  apply List.ext_getElem?
  intro i
  rw [slice, List.getElem?_take, List.getElem?_drop, getElem?_overwrite, List.getElem?_take]
  grind

/-- A part beside the one that was written stays. -/
theorem slice_overwrite_beside {buffer new : Bytes} {start stop place : Nat}
    (h : stop ≤ place ∨ place + new.length ≤ start) :
    (buffer.overwrite place new).slice start stop = buffer.slice start stop := by
  apply List.ext_getElem?
  intro i
  rw [slice, slice, List.getElem?_take, List.getElem?_take]
  by_cases hi : i < stop - start
  · rw [if_pos hi, if_pos hi, List.getElem?_drop, List.getElem?_drop,
      getElem?_overwrite_outside (by omega)]
  · rw [if_neg hi, if_neg hi]

/-- A part from where writing began on. -/
theorem slice_overwrite (b new : Bytes) (start stop : Nat) :
    (b.overwrite start new).slice start stop = (b.slice start stop).overwrite 0 new := by
  apply List.ext_getElem?
  intro i
  rw [slice, List.getElem?_take, List.getElem?_drop, getElem?_overwrite, getElem?_overwrite, slice,
    List.length_take, List.length_drop, List.getElem?_take, List.getElem?_drop]
  grind

/-- Overwriting within a part, and putting the part back. -/
theorem overwrite_overwrite_slice {b new : Bytes} {start stop k : Nat}
    (h : start + k + new.length ≤ stop ∨ b.length ≤ stop) :
    b.overwrite start ((b.slice start stop).overwrite k new) = b.overwrite (start + k) new := by
  apply List.ext_getElem?
  intro i
  rw [getElem?_overwrite, getElem?_overwrite, getElem?_overwrite, length_overwrite, slice,
    List.length_take, List.length_drop, List.getElem?_take, List.getElem?_drop]
  grind

/-- Overwriting at the front of a part. -/
theorem overwrite_part {b new : Bytes} {start room : Nat} (h : new.length ≤ room) :
    b.overwrite start (overwrite ((b.drop start).take room) 0 new) = b.overwrite start new := by
  have hpart : b.overwrite start (overwrite (b.slice start (start + room)) 0 new) =
      b.overwrite start new := overwrite_overwrite_slice (.inl (by omega))
  rwa [slice, Nat.add_sub_cancel_left] at hpart

/-- Overwriting at the front of a tail. -/
theorem overwrite_tail (b new : Bytes) (start : Nat) :
    b.overwrite start (overwrite (b.drop start) 0 new) = b.overwrite start new := by
  have htail : b.overwrite start (overwrite (b.slice start b.length) 0 new) =
      b.overwrite start new := overwrite_overwrite_slice (.inr (Nat.le_refl _))
  rwa [slice, List.take_of_length_le (Nat.le_of_eq List.length_drop)] at htail

/-- Two byte strings that differ at most at positions `start`, ..., `stop - 1`. -/
structure SameOutside (start stop : Nat) (before after : Bytes) : Prop where
  length_eq : after.length = before.length
  getElem?_eq : ∀ i, i < start ∨ stop ≤ i → after[i]? = before[i]?

theorem SameOutside.refl (start stop : Nat) (b : Bytes) : SameOutside start stop b b :=
  ⟨rfl, fun _ _ => rfl⟩

theorem SameOutside.trans {start stop : Nat} {b b' b'' : Bytes} (h : SameOutside start stop b b')
    (h' : SameOutside start stop b' b'') : SameOutside start stop b b'' :=
  ⟨h'.length_eq.trans h.length_eq, fun i hi => (h'.getElem?_eq i hi).trans (h.getElem?_eq i hi)⟩

/-- Writing within a part. -/
theorem sameOutside_overwrite {start stop place : Nat} {new : Bytes} (hplace : start ≤ place)
    (hstop : place + new.length ≤ stop) (b : Bytes) :
    SameOutside start stop b (b.overwrite place new) :=
  ⟨length_overwrite .., fun _ hi => getElem?_overwrite_outside (by omega)⟩

/-- From `start` on, `new` has been written, as far as the byte string goes. -/
structure Rewritten (start : Nat) (new before after : Bytes) : Prop where
  outside : SameOutside start (start + new.length) before after
  inside : after.slice start (start + new.length) = new.take (before.length - start)

theorem rewritten_overwrite (start : Nat) (new b : Bytes) :
    Rewritten start new b (b.overwrite start new) :=
  ⟨sameOutside_overwrite (Nat.le_refl _) (Nat.le_refl _) b, slice_overwrite_self b new start⟩

theorem rewritten_nil (start : Nat) (b : Bytes) : Rewritten start [] b b := by
  have h := rewritten_overwrite start [] b
  rwa [overwrite_nil] at h

end RomCast.Bytes
