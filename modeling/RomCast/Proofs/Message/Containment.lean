import RomCast.Proofs.Checked.Message
import RomCast.Proofs.Message.RoundTrip

set_option autoImplicit false

/-!
# Whatever fills a payload

The payload of a fragment is produced by a fill that nothing is known of: it may write what it
likes into the place it is given, and claim any number of bytes.  Still the packet stays within its
place, and declares just the bytes that are found in it.  Where there is too little room the fill is
not called, and of the packet its header at most is written (`encodeData_contained`).
-/

namespace RomCast

open RomCast.Checked (CheckedFill)

variable (module : ModuleName) (hash : ContentHash) (contentSize offset : UInt32) (room : Nat)
  (fill : Fill) (w : Writer)

/-! ## What is in the buffer -/

namespace Writer

variable {room w}

theorem length_payloadPlace (h : 110 + min room maxPayload ≤ w.remaining) :
    (w.payloadPlace room).length = min room maxPayload := by
  have hroom : 110 + min room maxPayload ≤ w.buffer.length - w.position := h
  rw [payloadPlace, Bytes.length_slice (by omega), Nat.add_sub_cancel_left]

/-- Nothing is changed beside the packet. -/
theorem sameOutside_packed : Bytes.SameOutside w.position
    (w.position + 110 + min room maxPayload) w.buffer
    (w.packed module hash contentSize offset room fill) := by
  have hheader := length_packetHeader .data module hash
  have hpayload : ((fill (w.payloadPlace room)).1.take (min room maxPayload)).length ≤
      min room maxPayload := List.length_take_le ..
  refine .trans (Bytes.sameOutside_overwrite (Nat.le_refl _) (by omega) _)
    (.trans (Bytes.sameOutside_overwrite (by omega) (by omega) _)
      (Bytes.sameOutside_overwrite (by omega) ?_ _))
  rw [length_fragmentHeader]
  omega

/-- What the fill has written is at the front of the place, as far as the place goes. -/
theorem slice_packed (h : 110 + min room maxPayload ≤ w.remaining) :
    (w.packed module hash contentSize offset room fill).slice (w.position + 110)
        (w.position + 110 + min room maxPayload) =
      (w.payloadPlace room).overwrite 0 (fill (w.payloadPlace room)).1 := by
  have hfits (header : FragmentHeader) :
      w.position + 100 + (Header.encode header).length ≤ w.position + 110 :=
    Nat.add_le_add_left (Nat.le_of_eq (length_fragmentHeader header)) (w.position + 100)
  rw [packed, Bytes.slice_overwrite_beside (.inr (hfits _)), Bytes.slice_overwrite,
    slice_headed, ← length_payloadPlace h, Bytes.overwrite_zero_take_length]

/-- In front of the payload are both headers. -/
theorem slice_packed_headers (h : 110 + min room maxPayload ≤ w.remaining) :
    (w.packed module hash contentSize offset room fill).slice w.position (w.position + 110) =
      Header.encode (packetHeader .data module hash) ++ Header.encode
        ({ contentSize, offset, payloadSize := UInt16.ofNat (w.payloadLength room fill) } :
          FragmentHeader) := by
  have hroom : 110 + min room maxPayload ≤ w.buffer.length - w.position := h
  have hheader := length_packetHeader .data module hash
  rw [← Bytes.slice_append_slice _ (Nat.le_add_right _ 100)
    (show w.position + 100 ≤ w.position + 110 by omega)]
  congr 1
  · have hfront := Bytes.slice_overwrite_self w.buffer
      (Header.encode (packetHeader .data module hash)) w.position
    rw [hheader, List.take_of_length_le (by omega)] at hfront
    rw [packed, Bytes.slice_overwrite_beside (.inl (Nat.le_refl _)),
      Bytes.slice_overwrite_beside (.inl (by omega))]
    exact hfront
  · rw [packed, show w.position + 110 = w.position + 100 + 10 by omega]
    generalize hinner : Header.encode (_ : FragmentHeader) = inner
    have hlength : inner.length = 10 := hinner ▸ length_fragmentHeader _
    rw [← hlength, Bytes.slice_overwrite_self, List.take_of_length_le]
    rw [Bytes.length_overwrite, length_headed]
    omega

theorem payloadLength_le : payloadLength room fill w ≤ min room maxPayload :=
  Nat.min_le_right ..

/-- What has been claimed is a packet with what is now in the place of the payload. -/
theorem wrote_packed (h : 110 + min room maxPayload ≤ w.remaining) {payload : Bytes}
    (hpayload : payload = (w.packed module hash contentSize offset room fill).slice
      (w.position + 110) (w.position + 110 + w.payloadLength room fill)) :
    payload.length = w.payloadLength room fill ∧
      w.wrote ⟨w.packed module hash contentSize offset room fill,
          w.position + 110 + w.payloadLength room fill⟩ =
        dataPacket module hash contentSize offset payload := by
  have hroom : 110 + min room maxPayload ≤ w.buffer.length - w.position := h
  have hlength : (w.packed module hash contentSize offset room fill).length = w.buffer.length :=
    (w.sameOutside_packed module hash contentSize offset fill).length_eq
  have hshort : w.payloadLength room fill ≤ min room maxPayload := payloadLength_le fill
  have hsize : payload.length = w.payloadLength room fill := by
    rw [hpayload, Bytes.length_slice (by omega), Nat.add_sub_cancel_left]
  refine ⟨hsize, ?_⟩
  rw [wrote, dataPacket, fragmentHeader, hsize, ← List.append_assoc,
    ← slice_packed_headers module hash contentSize offset fill h, hpayload]
  exact (Bytes.slice_append_slice _ (Nat.le_add_right ..) (Nat.le_add_right ..)).symm

end Writer

/-! ## How it ends -/

/-- How writing a fragment is refused: for want of room for the header of the packet, for that of
the fragment, or for the largest payload. -/
inductive FragmentRefusal : GuardError → Writer → Prop where
  | header (short : w.remaining < 100) :
      FragmentRefusal ⟨w.position, 100, w.remaining⟩ w
  | fragment (ample : 100 ≤ w.remaining) (short : w.remaining < 110) :
      FragmentRefusal ⟨w.position + 100, 10, w.remaining - 100⟩
        ⟨w.headed module hash, w.position + 100⟩
  | payload (ample : 110 ≤ w.remaining) (short : w.remaining < 110 + min room maxPayload) :
      FragmentRefusal ⟨w.position + 110, min room maxPayload, w.remaining - 110⟩
        ⟨w.headed module hash, w.position + 110⟩

/-- What is known once a fragment is refused: it was for want of room, no more than the header of
the packet is written, and the report is about where the writer stands.  No fill makes a
difference. -/
structure FragmentRefused (e : GuardError) (w' : Writer) : Prop where
  short : w.remaining < 110 + min room maxPayload
  outside : Bytes.SameOutside w.position (w.position + 100) w.buffer w'.buffer
  offset_eq : e.offset = w'.position
  available_eq : e.available = w'.remaining
  available_lt : e.available < e.needed
  refusal : FragmentRefusal module hash room w e w'
  unfilled : ∀ other : Fill, encodeData module hash contentSize offset room other w = .error e w'

/-- What is known once a fragment is written. -/
structure FragmentWritten (written : Nat) (w' : Writer) : Prop where
  ample : 110 + min room maxPayload ≤ w.remaining
  written_eq : written = min (fill (w.payloadPlace room)).2 (min room maxPayload)
  position_eq : w'.position = w.position + 110 + written
  outside : Bytes.SameOutside w.position (w.position + 110 + min room maxPayload)
    w.buffer w'.buffer
  filled : w'.buffer.slice (w.position + 110) (w.position + 110 + min room maxPayload) =
    (w.payloadPlace room).overwrite 0 (fill (w.payloadPlace room)).1
  declared_eq : (UInt16.ofNat written).toNat = written
  decode_eq : Message.decode (w.wrote w') = .ok ⟨module, hash, .data
    { contentSize
      offset
      payloadSize := UInt16.ofNat written
      payload := w'.buffer.slice (w.position + 110) w'.position }⟩

variable {room w} {e : GuardError} {w' : Writer}

/-- A refusal is one for every fill. -/
theorem FragmentRefusal.encodeData_eq (h : FragmentRefusal module hash room w e w') :
    encodeData module hash contentSize offset room fill w = .error e w' := by
  rw [encodeData_apply]
  cases h with
  | header short => rw [if_pos short]
  | fragment ample short => rw [if_neg (Nat.not_lt.mpr ample), if_pos short]
  | payload ample short => rw [if_neg (by omega), if_neg (Nat.not_lt.mpr ample), if_pos short]

theorem FragmentRefusal.refused (h : FragmentRefusal module hash room w e w') :
    FragmentRefused module hash contentSize offset room w e w' := by
  have hlength := length_packetHeader .data module hash
  have hheaded : Bytes.SameOutside w.position (w.position + 100) w.buffer
      (w.headed module hash) :=
    Bytes.sameOutside_overwrite (Nat.le_refl _) (by omega) _
  have hremaining := w.remaining_headed module hash
  have hunfilled (other : Fill) := h.encodeData_eq module hash contentSize offset other
  cases h with
  | header short => exact ⟨by omega, .refl .., rfl, rfl, short, .header short, hunfilled⟩
  | fragment ample short =>
    refine ⟨by omega, hheaded, rfl, (hremaining 100).symm, ?_, .fragment ample short, hunfilled⟩
    show w.remaining - 100 < 10
    omega
  | payload ample short =>
    refine ⟨short, hheaded, rfl, (hremaining 110).symm, ?_, .payload ample short, hunfilled⟩
    show w.remaining - 110 < min room maxPayload
    omega

theorem fragmentWritten (h : 110 + min room maxPayload ≤ w.remaining) :
    FragmentWritten module hash contentSize offset room fill w (w.payloadLength room fill)
      ⟨w.packed module hash contentSize offset room fill,
        w.position + 110 + w.payloadLength room fill⟩ := by
  have hmax : w.payloadLength room fill ≤ maxPayload :=
    Nat.le_trans (Writer.payloadLength_le fill) (Nat.min_le_right ..)
  obtain ⟨hlength, hwrote⟩ := Writer.wrote_packed module hash contentSize offset fill h rfl
  refine ⟨h, rfl, rfl, Writer.sameOutside_packed .., Writer.slice_packed _ _ _ _ _ h, ?_, ?_⟩
  · have hword : maxPayload < 2 ^ 16 := by decide
    rw [UInt16.toNat_ofNat']
    exact Nat.mod_eq_of_lt (Nat.lt_of_le_of_lt hmax hword)
  · rw [hwrote, Message.decode_data _ _ _ _ (Nat.le_trans (Nat.le_of_eq hlength) hmax),
      Fragment.carrying, hlength]

variable (room w)

/-- Whatever fills the payload.  On machine words the same happens, and nothing faults: where there
is room, for a fill that keeps to its place, and where there is not, for any fill at all, even for
one that would fault. -/
theorem encodeData_contained :
    (match encodeData module hash contentSize offset room fill w with
      | .ok written w' =>
          FragmentWritten module hash contentSize offset room fill w written w'
      | .error e w' => FragmentRefused module hash contentSize offset room w e w') ∧
      ∀ strict : CheckedFill, w.remaining < 110 + min room maxPayload ∨ strict.Writes fill →
        w.position ≤ w.buffer.length → w.buffer.length < 2 ^ 64 →
          Message.Checked.encodeData module hash contentSize offset room strict w =
            (encodeData module hash contentSize offset room fill).mapError Trap.failure w := by
  constructor
  · rw [encodeData_apply]
    by_cases hheader : w.remaining < 100
    · rw [if_pos hheader]
      exact (FragmentRefusal.header hheader).refused ..
    · rw [if_neg hheader]
      by_cases hfragment : w.remaining < 110
      · rw [if_pos hfragment]
        exact (FragmentRefusal.fragment (Nat.le_of_not_lt hheader) hfragment).refused ..
      · rw [if_neg hfragment]
        by_cases hpayload : w.remaining < 110 + min room maxPayload
        · rw [if_pos hpayload]
          exact (FragmentRefusal.payload (Nat.le_of_not_lt hfragment) hpayload).refused ..
        · rw [if_neg hpayload]
          exact fragmentWritten _ _ _ _ _ (Nat.le_of_not_lt hpayload)
  · intro strict hfill hposition hsize
    have hwithin : Writer.Within w.buffer.length w.position w := ⟨rfl, Nat.le_refl _, hposition⟩
    refine (Message.Checked.encodeData_follows hsize module hash contentSize offset room
      fun hroom => ?_).eq_of_never hwithin
    have hremaining : w.remaining = w.buffer.length - w.position := rfl
    exact hfill.resolve_left (by omega)

/-- A fill that writes and claims more than its place holds, with room for its place; and one that
faults, with too little room for it to be called. -/
theorem greedy_fill_contained :
    let name : ModuleName := ⟨"rom", ModuleName.valid_rom⟩
    let hash : ContentHash := Octets.fill 32 1
    let greedy : Fill := fun _ => ([7, 8, 9, 10, 11], 70000)
    let ample : Writer := ⟨Bytes.zeros 200, 20⟩
    let short : Writer := ⟨Bytes.zeros 200, 88⟩
    (∃ w', encodeData name hash 6 2 3 greedy ample = .ok 3 w' ∧ w'.position = 133 ∧
      Message.decode (ample.wrote w') = .ok ⟨name, hash, .data ⟨6, 2, 3, [7, 8, 9]⟩⟩) ∧
      ∃ w', Message.Checked.encodeData name hash 6 2 3 (fun _ => .error .overflow) short =
        .error (.failure ⟨198, 3, 2⟩) w' := by
  intro name hash greedy ample short
  have hample : ample.remaining = 180 := by
    show (Bytes.zeros 200).length - 20 = 180
    rw [Bytes.length_zeros]
  have hshort : short.remaining = 112 := by
    show (Bytes.zeros 200).length - 88 = 112
    rw [Bytes.length_zeros]
  have hcapacity : min 3 maxPayload = 3 := rfl
  constructor
  · have h := (encodeData_contained name hash 6 2 3 greedy ample).1
    cases hresult : encodeData name hash 6 2 3 greedy ample with
    | error e w' =>
      rw [hresult] at h
      have hlimit := h.short
      omega
    | ok written w' =>
      rw [hresult] at h
      obtain ⟨hroom, rfl, hposition, -, hfilled, -, hdecode⟩ := h
      have hplace : (ample.payloadPlace 3).length = 3 := Writer.length_payloadPlace hroom
      rw [Bytes.overwrite, hplace, List.drop_of_length_le (by rw [hplace]; decide)] at hfilled
      have hend : w'.position = 133 := hposition
      rw [hend, show w'.buffer.slice (ample.position + 110) 133 = [7, 8, 9] from hfilled] at hdecode
      exact ⟨w', rfl, hend, hdecode⟩
  · obtain ⟨h, hstrict⟩ := encodeData_contained name hash 6 2 3 greedy short
    have hchecked := hstrict (fun _ => .error .overflow) (.inl (by omega))
      (by rw [Bytes.length_zeros]; decide) (by rw [Bytes.length_zeros]; decide)
    cases hresult : encodeData name hash 6 2 3 greedy short with
    | error e w' =>
      rw [hresult] at h
      rw [Action.mapError, hresult] at hchecked
      cases h.refusal with
      | header _ => omega
      | fragment _ _ => omega
      | payload _ _ =>
        rw [hshort] at hchecked
        exact ⟨_, hchecked⟩
    | ok written w' =>
      rw [hresult] at h
      have hroom := h.ample
      omega

end RomCast
