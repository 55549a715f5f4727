import RomCast.Proofs.Message

set_option autoImplicit false

/-!
# The fragments of a content

A content is cut into fragments of `maxPayload` bytes, the last of which may be shorter.  They are
numbered from zero, each is well-formed, and only the last one reaches the content's end.
-/

namespace RomCast.Server

/-- How many fragments a content has. -/
def fragmentCount (content : Bytes) : Nat := (content.length + maxPayload - 1) / maxPayload

/-- The bytes of a content that its fragment with a number carries. -/
def chunk (content : Bytes) (i : Nat) : Bytes := (content.drop (i * maxPayload)).take maxPayload

/-- The fragment with a number. -/
def fragment (content : Bytes) (i : Nat) : Fragment :=
  .carrying (UInt32.ofNat content.length) (UInt32.ofNat (i * maxPayload)) (chunk content i)

theorem length_chunk (content : Bytes) (i : Nat) :
    (chunk content i).length = min maxPayload (content.length - i * maxPayload) := by
  rw [chunk, List.length_take, List.length_drop]

theorem length_chunk_le (content : Bytes) (i : Nat) : (chunk content i).length ≤ maxPayload := by
  rw [length_chunk]
  exact Nat.min_le_left ..

variable {content : Bytes} {i : Nat}

/-- A fragment that there is starts within the content. -/
theorem start_lt (h : i < fragmentCount content) : i * maxPayload < content.length := by
  have hmax : maxPayload = 1024 := rfl
  rw [fragmentCount, hmax] at h
  rw [hmax]
  omega

theorem fragmentCount_pos (h : 0 < content.length) : 0 < fragmentCount content := by
  have hmax : maxPayload = 1024 := rfl
  rw [fragmentCount, hmax]
  omega

/-- The last fragment ends where the content does, and the others end where the next one starts. -/
theorem start_add_length_chunk (h : i < fragmentCount content) :
    i * maxPayload + (chunk content i).length =
      if i + 1 = fragmentCount content then content.length else (i + 1) * maxPayload := by
  have hmax : maxPayload = 1024 := rfl
  have hstart := start_lt h
  rw [length_chunk]
  rw [fragmentCount, hmax] at h ⊢
  rw [hmax] at hstart
  split
  · omega
  · omega

/-! ## What a fragment says about itself -/

theorem contentSize_fragment (hlength : content.length < UInt32.size) (i : Nat) :
    (fragment content i).contentSize.toNat = content.length := by
  have hlength' : content.length < 4294967296 := hlength
  show (UInt32.ofNat content.length).toNat = content.length
  rw [UInt32.toNat_ofNat']
  omega

theorem offset_fragment (hi : i < fragmentCount content) (hlength : content.length < UInt32.size) :
    (fragment content i).offset.toNat = i * maxPayload := by
  have hlength' : content.length < 4294967296 := hlength
  have hstart := start_lt hi
  show (UInt32.ofNat (i * maxPayload)).toNat = i * maxPayload
  rw [UInt32.toNat_ofNat']
  omega

theorem payloadSize_fragment (content : Bytes) (i : Nat) :
    (fragment content i).payloadSize.toNat = (chunk content i).length := by
  have hchunk : (chunk content i).length ≤ 1024 := length_chunk_le content i
  show (UInt16.ofNat (chunk content i).length).toNat = (chunk content i).length
  rw [UInt16.toNat_ofNat']
  omega

theorem stop_fragment (hi : i < fragmentCount content) (hlength : content.length < UInt32.size) :
    (fragment content i).stop =
      if i + 1 = fragmentCount content then content.length else (i + 1) * maxPayload := by
  rw [Fragment.stop, offset_fragment hi hlength, payloadSize_fragment, start_add_length_chunk hi]

/-- A fragment of a content is well-formed. -/
theorem validate_fragment (hi : i < fragmentCount content)
    (hlength : content.length < UInt32.size) : (fragment content i).validate = .ok () := by
  have hchunk := length_chunk_le content i
  have hstop : (fragment content i).stop ≤ content.length := by
    have hstart := start_lt hi
    rw [Fragment.stop, offset_fragment hi hlength, payloadSize_fragment, length_chunk]
    omega
  rw [Fragment.validate_eq_ok_iff, payloadSize_fragment, contentSize_fragment hlength]
  refine ⟨hchunk, Nat.le_refl _, ?_⟩
  rwa [Fragment.stop, payloadSize_fragment] at hstop

/-- Only the last fragment reaches the content's end. -/
theorem isLast_fragment (hi : i < fragmentCount content)
    (hlength : content.length < UInt32.size) :
    (fragment content i).isLast = decide (i + 1 = fragmentCount content) := by
  rw [Fragment.isLast, decide_eq_decide, contentSize_fragment hlength, stop_fragment hi hlength]
  by_cases hlast : i + 1 = fragmentCount content
  · rw [if_pos hlast]
    exact iff_of_true (Nat.le_refl _) hlast
  · rw [if_neg hlast]
    have hnext : i + 1 < fragmentCount content := by omega
    exact iff_of_false (Nat.not_le.mpr (start_lt hnext)) hlast

/-- Only the first fragment starts at the content's beginning. -/
theorem offset_fragment_eq_zero_iff (hi : i < fragmentCount content)
    (hlength : content.length < UInt32.size) : (fragment content i).offset = 0 ↔ i = 0 := by
  have hmax : maxPayload = 1024 := rfl
  have hoffset := offset_fragment hi hlength
  rw [hmax] at hoffset
  constructor
  · intro hzero
    rw [hzero] at hoffset
    have hnone : (0 : UInt32).toNat = 0 := rfl
    omega
  · intro hzero
    subst hzero
    exact UInt32.toNat_inj.mp hoffset

end RomCast.Server
