import RomCast.ModuleName
import RomCast.Proofs.Bytes.Words

set_option autoImplicit false

/-!
# Names survive the wire

A name without the character NUL has no zero byte in its encoding, so that the zero bytes behind it
in its field are the end of it (`ofField_toField`).
-/

namespace RomCast

namespace Text

/-! ## Bytes of texts -/

theorem toList_loop_eq (bytes : ByteArray) (i : Nat) (done : List UInt8) :
    ByteArray.toList.loop bytes i done = done.reverse ++ bytes.data.toList.drop i := by
  have hsize : bytes.data.toList.length = bytes.size := Array.length_toList
  induction i, done using ByteArray.toList.loop.induct bytes with
  | case1 i done hi ih =>
    have hlt : i < bytes.data.toList.length := by
      rw [hsize]
      exact hi
    have hget : bytes.get! i = bytes.data.toList[i] := by
      rw [Array.getElem_toList]
      exact getElem!_pos bytes.data i hi
    rw [ByteArray.toList.loop, if_pos hi, ih, hget, List.reverse_cons, List.append_assoc,
      List.singleton_append, ← List.drop_eq_getElem_cons hlt]
  | case2 i done hi =>
    have hle : bytes.data.toList.length ≤ i := by
      rw [hsize]
      exact Nat.le_of_not_lt hi
    rw [ByteArray.toList.loop, if_neg hi, List.drop_of_length_le hle, List.append_nil]

theorem toList_eq_data (bytes : ByteArray) : bytes.toList = bytes.data.toList :=
  toList_loop_eq bytes 0 []

/-- A text is read back from its bytes. -/
theorem decode?_utf8 (text : String) : decode? (utf8 text) = some text := by
  have hbytes : ByteArray.mk (utf8 text).toArray = text.toByteArray := by
    rw [utf8, toList_eq_data]
    rfl
  have hvalid : text.toByteArray.IsValidUTF8 := text.isValidUTF8
  rw [decode?, hbytes, String.fromUTF8?, dif_pos hvalid]
  rfl

theorem length_utf8 (text : String) : (utf8 text).length = text.utf8ByteSize := by
  rw [utf8, toList_eq_data]
  exact Array.length_toList

theorem or_ne_zero {x y : UInt8} (h : y ≠ 0) : x ||| y ≠ 0 := by
  intro hzero
  have hor : x.toNat ||| y.toNat = 0 := by
    rw [← UInt8.toNat_or, hzero]
    rfl
  have hle : y.toNat ≤ x.toNat ||| y.toNat := Nat.right_le_or
  exact h (UInt8.toNat_inj.mp (by simp; omega))

/-- Only the character NUL has a zero byte in its encoding. -/
theorem zero_notMem_utf8EncodeChar {c : Char} (h : c ≠ '\x00') :
    (0 : UInt8) ∉ String.utf8EncodeChar c := by
  rcases c.utf8Size_eq with hone | htwo | hthree | hfour
  · rw [String.utf8EncodeChar_eq_singleton hone, List.mem_singleton]
    intro hzero
    have hsmall : c.val.toNat ≤ 127 := by
      have hle : c.val ≤ 0x7f := Char.utf8Size_eq_one_iff.mp hone
      exact UInt32.le_iff_toNat_le.mp hle
    have hnat : c.val.toNat % 256 = 0 := by
      have hcongr := congrArg UInt8.toNat hzero
      rw [UInt32.toNat_toUInt8] at hcongr
      exact hcongr.symm
    refine h (Char.ext (UInt32.toNat_inj.mp ?_))
    show c.val.toNat = 0
    omega
  · rw [String.utf8EncodeChar_eq_cons_cons htwo]
    intro hmem
    rcases List.mem_cons.mp hmem with hbyte | hrest
    · exact or_ne_zero (by decide) hbyte.symm
    · exact or_ne_zero (by decide) (List.mem_singleton.mp hrest).symm
  · rw [String.utf8EncodeChar_eq_cons_cons_cons hthree]
    intro hmem
    simp only [List.mem_cons, List.not_mem_nil, or_false] at hmem
    rcases hmem with hbyte | hbyte | hbyte
    all_goals exact or_ne_zero (by decide) hbyte.symm
  · rw [String.utf8EncodeChar_eq_cons_cons_cons_cons hfour]
    intro hmem
    simp only [List.mem_cons, List.not_mem_nil, or_false] at hmem
    rcases hmem with hbyte | hbyte | hbyte | hbyte
    all_goals exact or_ne_zero (by decide) hbyte.symm

/-- The bytes of a text are those of its characters. -/
theorem utf8_eq_flatMap (text : String) :
    utf8 text = text.toList.flatMap String.utf8EncodeChar := by
  rw [utf8, toList_eq_data]
  show text.toByteArray.data.toList = _
  rw [← String.utf8Encode_toList, List.utf8Encode, List.toList_data_toByteArray]

theorem zero_notMem_utf8 {text : String} (h : '\x00' ∉ text.toList) : (0 : UInt8) ∉ utf8 text := by
  rw [utf8_eq_flatMap, List.mem_flatMap]
  rintro ⟨c, hc, hzero⟩
  have hne : c ≠ '\x00' := by
    intro heq
    exact h (heq ▸ hc)
  exact zero_notMem_utf8EncodeChar hne hzero

end Text

namespace Bytes

/-! ## The first zero byte -/

/-- The first zero byte stands at this position. -/
def FirstNul (b : Bytes) (n : Nat) : Prop := b[n]? = some 0 ∧ (0 : UInt8) ∉ b.take n

variable {b : Bytes} {n : Nat}

theorem FirstNul.lt (h : b.FirstNul n) : n < b.length := (List.getElem?_eq_some_iff.mp h.1).1

theorem FirstNul.mem (h : b.FirstNul n) : (0 : UInt8) ∈ b := List.mem_of_getElem? h.1

/-- There is no other one. -/
theorem FirstNul.unique {m : Nat} (h : b.FirstNul n) (h' : b.FirstNul m) : n = m := by
  have hle : ∀ {i j : Nat}, b.FirstNul i → b.FirstNul j → i ≤ j := by
    intro i j hi hj
    refine Nat.le_of_not_lt fun hlt => hi.2 ?_
    refine List.mem_of_getElem? (i := j) ?_
    rw [List.getElem?_take_of_lt hlt]
    exact hj.1
  exact Nat.le_antisymm (hle h h') (hle h' h)

theorem firstNul_cons_zero (rest : Bytes) : FirstNul (0 :: rest) 0 := ⟨rfl, List.not_mem_nil⟩

theorem FirstNul.cons {byte : UInt8} (hbyte : byte ≠ 0) (h : b.FirstNul n) :
    FirstNul (byte :: b) (n + 1) := by
  refine ⟨h.1, fun hmem => ?_⟩
  rcases List.mem_cons.mp hmem with hzero | hrest
  · exact hbyte hzero.symm
  · exact h.2 hrest

/-- What stands before the first zero byte, and everything where there is none. -/
theorem untilNul_cases (b : Bytes) :
    ((0 : UInt8) ∉ b ∧ b.untilNul = b) ∨ ∃ n, b.FirstNul n ∧ b.untilNul = b.take n := by
  induction b with
  | nil => exact Or.inl ⟨List.not_mem_nil, rfl⟩
  | cons byte rest ih =>
    by_cases hbyte : byte = 0
    · subst hbyte
      exact Or.inr ⟨0, firstNul_cons_zero rest, rfl⟩
    · have hmore : untilNul (byte :: rest) = byte :: untilNul rest := by
        simp [untilNul, hbyte]
      rcases ih with ⟨hnone, hall⟩ | ⟨n, hn, hfront⟩
      · refine Or.inl ⟨?_, by rw [hmore, hall]⟩
        exact List.not_mem_cons_of_ne_of_not_mem (fun hzero => hbyte hzero.symm) hnone
      · exact Or.inr ⟨n + 1, hn.cons hbyte, by rw [hmore, hfront, List.take_succ_cons]⟩

theorem FirstNul.untilNul (h : b.FirstNul n) : b.untilNul = b.take n := by
  rcases untilNul_cases b with ⟨hnone, -⟩ | ⟨m, hm, hfront⟩
  · exact absurd h.mem hnone
  · rw [hfront, h.unique hm]

/-- Where something is cut off, a zero byte is the first thing that is. -/
theorem firstNul_of_length_untilNul (h : b.untilNul.length ≠ b.length) :
    b.FirstNul b.untilNul.length := by
  rcases untilNul_cases b with ⟨-, hall⟩ | ⟨n, hn, hfront⟩
  · exact absurd (congrArg List.length hall) h
  · rwa [hfront, List.length_take, Nat.min_eq_left (Nat.le_of_lt hn.lt)]

/-- A byte string without a zero byte, in front of zeros. -/
theorem untilNul_append_zeros {b : Bytes} (h : (0 : UInt8) ∉ b) (n : Nat) :
    untilNul (b ++ zeros n) = b := by
  induction b with
  | nil => cases n with
    | zero => rfl
    | succ n => simp [untilNul, zeros, List.replicate_succ]
  | cons byte rest ih =>
    have hbyte : byte ≠ 0 := fun heq => h (by simp [heq])
    have hrest : (0 : UInt8) ∉ rest := fun hmem => h (List.mem_cons_of_mem _ hmem)
    rw [List.cons_append, untilNul, List.takeWhile_cons_of_pos (by simpa using hbyte)]
    exact congrArg _ (ih hrest)

end Bytes

namespace ModuleName

/-- A name is read back from its field. -/
theorem ofField_toField (name : ModuleName) : ofField name.toField = .ok name := by
  obtain ⟨text, hnonempty, hshort, hnul⟩ := name
  have hlength : (Text.utf8 text).length < 64 := by
    rw [Text.length_utf8]
    exact hshort
  have hfield : (Octets.ofBytes 64 (Text.utf8 text)).bytes.untilNul = Text.utf8 text := by
    have htake : (Text.utf8 text).take 64 = Text.utf8 text :=
      List.take_of_length_le (Nat.le_of_lt hlength)
    show (Bytes.resize (Text.utf8 text) 64).untilNul = _
    rw [Bytes.resize, htake]
    exact Bytes.untilNul_append_zeros (Text.zero_notMem_utf8 hnul) _
  have hname : (Text.utf8 text).length ≠ nameFieldLength := Nat.ne_of_lt hlength
  simp only [ofField, toField, hfield, if_neg hname, Text.decode?_utf8]
  have hvalid : Valid text := ⟨hnonempty, hshort, hnul⟩
  rw [ofText, dif_pos hvalid]

/-- A name for examples. -/
theorem valid_rom : Valid "rom" := by decide

end ModuleName

end RomCast
