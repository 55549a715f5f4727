import RomCast.Message
import RomCast.Proofs.Cursor.Filling
import RomCast.Proofs.ModuleName

set_option autoImplicit false

/-!
# Packets are read back as they were written

The bytes that the encoders write, and that decoding them gives back what they were made of.
Whether a fragment is written depends on the room that there is, and on nothing else
(`encodeData_apply`).
-/

namespace RomCast

/-! ## Headers -/

theorem length_packetHeader (kind : PacketKind) (module : ModuleName) (hash : ContentHash) :
    (Header.encode (packetHeader kind module hash)).length = 100 :=
  LawfulHeader.length_encode _

theorem length_fragmentHeader (header : FragmentHeader) : (Header.encode header).length = 10 :=
  LawfulHeader.length_encode header

/-! ## Signals and updates -/

/-- The bytes of a signal or an update. -/
def controlPacket (kind : PacketKind) (module : ModuleName) (hash : ContentHash) : Bytes :=
  Header.encode (packetHeader kind module hash)

@[simp] theorem length_controlPacket (kind : PacketKind) (module : ModuleName)
    (hash : ContentHash) : (controlPacket kind module hash).length = 100 :=
  length_packetHeader kind module hash

theorem encodeControl_fills (kind : PacketKind) (module : ModuleName) (hash : ContentHash) :
    Writer.Fills (encodeControl kind module hash) (controlPacket kind module hash) :=
  Writer.put_fills (packetHeader kind module hash)

/-- The header at the front of a byte string that begins with it. -/
theorem Reader.readFront_encode_append {α : Type} [Header α] [LawfulHeader α] (h : α)
    (rest : Bytes) : Reader.readFront α (Header.encode h ++ rest) = .ok h := by
  have hsize : Header.size α ≤ (Header.encode h ++ rest).length := by
    rw [List.length_append, LawfulHeader.length_encode]
    exact Nat.le_add_right ..
  have htake : (Header.encode h ++ rest).take (Header.size α) = Header.encode h ++ [] := by
    rw [← LawfulHeader.length_encode h, List.take_left, List.append_nil]
  have hremaining : Header.size α ≤ Reader.remaining ⟨Header.encode h ++ rest, 0⟩ := hsize
  simp only [readFront, read, Action.result, Action.bind_apply, Reader.take, if_pos hremaining,
    Action.pure_apply, Reader.rest, List.drop_zero, htake, LawfulHeader.decode_encode_append]

/-- The header behind a prefix. -/
theorem Reader.read_encode_append {α : Type} [Header α] [LawfulHeader α] (front : Bytes) (h : α)
    (rest : Bytes) :
    (Reader.read α).result ⟨front ++ (Header.encode h ++ rest), front.length⟩ = .ok h := by
  have hremaining : Header.size α ≤
      Reader.remaining ⟨front ++ (Header.encode h ++ rest), front.length⟩ := by
    simp only [Reader.remaining, List.length_append, LawfulHeader.length_encode]
    omega
  have htake : (Header.encode h ++ rest).take (Header.size α) = Header.encode h ++ [] := by
    rw [← LawfulHeader.length_encode h, List.take_left, List.append_nil]
  simp only [read, Action.result, Action.bind_apply, Reader.take, if_pos hremaining,
    Action.pure_apply, Reader.rest, List.drop_left, htake, LawfulHeader.decode_encode_append]

/-- A signal or an update is found, whatever follows it. -/
theorem Message.decode_control_append (module : ModuleName) (hash : ContentHash)
    (body : MessageBody) (hbody : ∀ f, body ≠ .data f) (rest : Bytes) :
    decode (controlPacket body.kind module hash ++ rest) = .ok ⟨module, hash, body⟩ := by
  have hheader : Reader.readFront PacketHeader (controlPacket body.kind module hash ++ rest) =
      .ok (packetHeader body.kind module hash) :=
    Reader.readFront_encode_append (packetHeader body.kind module hash) rest
  unfold decode
  rw [hheader]
  simp only [packetHeader, bind, Except.bind, Action.except_mapError_ok, ModuleName.ofField_toField,
    PacketKind.ofWord?_toWord]
  cases body with
  | signal => rfl
  | update => rfl
  | data f => exact absurd rfl (hbody f)

theorem Message.decode_signal (module : ModuleName) (hash : ContentHash) :
    decode (controlPacket .signal module hash) = .ok ⟨module, hash, .signal⟩ := by
  have hdecode := decode_control_append module hash .signal nofun []
  rwa [List.append_nil] at hdecode

theorem Message.decode_update (module : ModuleName) (hash : ContentHash) :
    decode (controlPacket .update module hash) = .ok ⟨module, hash, .update⟩ := by
  have hdecode := decode_control_append module hash .update nofun []
  rwa [List.append_nil] at hdecode

/-! ## Fragments -/

/-- A fragment is valid when it is not too long, all there, and within its content. -/
theorem Fragment.validate_eq_ok_iff (f : Fragment) :
    f.validate = .ok () ↔
      f.payloadSize.toNat ≤ 1024 ∧ f.payloadSize.toNat ≤ f.payload.length ∧
        f.offset.toNat + f.payloadSize.toNat ≤ f.contentSize.toNat := by
  unfold validate
  simp only [Action.except_check_eq_ok, Nat.not_lt, and_true]
  rfl

/-- The header of a fragment with this payload. -/
def fragmentHeader (contentSize offset : UInt32) (payload : Bytes) : FragmentHeader :=
  { contentSize, offset, payloadSize := UInt16.ofNat payload.length }

/-- The bytes of a fragment. -/
def dataPacket (module : ModuleName) (hash : ContentHash) (contentSize offset : UInt32)
    (payload : Bytes) : Bytes :=
  Header.encode (packetHeader .data module hash) ++
    (Header.encode (fragmentHeader contentSize offset payload) ++ payload)

@[simp] theorem length_dataPacket (module : ModuleName) (hash : ContentHash)
    (contentSize offset : UInt32) (payload : Bytes) :
    (dataPacket module hash contentSize offset payload).length = 110 + payload.length := by
  simp only [dataPacket, List.length_append, length_packetHeader, length_fragmentHeader]
  omega

/-- A fragment as it is found on the wire. -/
def Fragment.carrying (contentSize offset : UInt32) (payload : Bytes) : Fragment :=
  { contentSize, offset, payloadSize := UInt16.ofNat payload.length, payload }

/-- A fragment is found, whatever follows it; what follows is not taken for its payload. -/
theorem Message.decode_data_append (module : ModuleName) (hash : ContentHash)
    (contentSize offset : UInt32) {payload : Bytes} (h : payload.length ≤ maxPayload)
    (rest : Bytes) :
    decode (dataPacket module hash contentSize offset payload ++ rest) =
      .ok ⟨module, hash, .data (.carrying contentSize offset payload)⟩ := by
  have hwhole : dataPacket module hash contentSize offset payload ++ rest =
      Header.encode (packetHeader .data module hash) ++
        (Header.encode (fragmentHeader contentSize offset payload) ++ (payload ++ rest)) := by
    simp only [dataPacket, List.append_assoc]
  have hheader : Reader.readFront PacketHeader
      (dataPacket module hash contentSize offset payload ++ rest) =
        .ok (packetHeader .data module hash) := by
    rw [hwhole]
    exact Reader.readFront_encode_append _ _
  have hlength : (Header.encode (packetHeader .data module hash)).length =
      Header.size PacketHeader := LawfulHeader.length_encode _
  have hfragment : (Reader.read FragmentHeader).result
      ⟨dataPacket module hash contentSize offset payload ++ rest, Header.size PacketHeader⟩ =
        .ok (fragmentHeader contentSize offset payload) := by
    rw [hwhole, ← hlength]
    exact Reader.read_encode_append _ _ _
  have hrest : (dataPacket module hash contentSize offset payload ++ rest).drop
      (Header.size PacketHeader + Header.size FragmentHeader) = payload ++ rest := by
    have hinner : (Header.encode (fragmentHeader contentSize offset payload)).length =
        Header.size FragmentHeader := LawfulHeader.length_encode _
    rw [← List.drop_drop, ← hlength, hwhole, List.drop_left, ← hinner, List.drop_left]
  have hsize : (UInt16.ofNat payload.length).toNat = payload.length := by
    have hmax : payload.length ≤ 1024 := h
    rw [UInt16.toNat_ofNat']
    omega
  have htake : (payload ++ rest).take
      (fragmentHeader contentSize offset payload).payloadSize.toNat = payload := by
    rw [fragmentHeader, hsize, List.take_left]
  unfold decode
  rw [hheader]
  simp only [packetHeader, bind, Except.bind, Action.except_mapError_ok,
    ModuleName.ofField_toField, PacketKind.ofWord?_toWord, hfragment, hrest, htake]
  rfl

theorem Message.decode_data (module : ModuleName) (hash : ContentHash)
    (contentSize offset : UInt32) {payload : Bytes} (h : payload.length ≤ maxPayload) :
    decode (dataPacket module hash contentSize offset payload) =
      .ok ⟨module, hash, .data (.carrying contentSize offset payload)⟩ := by
  have hdecode := decode_data_append module hash contentSize offset h []
  rwa [List.append_nil] at hdecode

/-- Writing a fragment whose payload is what is filled in, as far as there is room for it. -/
theorem encodeData_fills (module : ModuleName) (hash : ContentHash) (contentSize offset : UInt32)
    {chunk : Nat} {filled : Bytes} {fill : Fill} (h : chunk ≤ maxPayload)
    (hfill : ∀ place : Bytes, place.length = chunk → fill place = (filled, filled.length)) :
    Writer.FillsWithin (110 + chunk) (do
      let _ ← encodeData module hash contentSize offset chunk fill)
      (dataPacket module hash contentSize offset (filled.take chunk)) := by
  intro done old rest hold hwide
  obtain ⟨payload, hpayload⟩ : ∃ payload, payload = filled.take chunk := ⟨_, rfl⟩
  have hlength : min filled.length chunk = payload.length := by
    rw [hpayload, List.length_take, Nat.min_comm]
  rw [← hpayload, length_dataPacket] at hold
  have hheader := length_packetHeader .data module hash
  have hfragment := length_fragmentHeader (fragmentHeader contentSize offset payload)
  -- The place of the packet falls into the places of its header, the fragment's header and the
  -- payload.
  obtain ⟨first, back, hold₁, hfirst⟩ := Bytes.exists_split (n := 100) (b := old) (by omega)
  obtain ⟨second, third, hold₂, hsecond⟩ := Bytes.exists_split (n := 10) (b := back) (by
    have hlength := congrArg List.length hold₁
    simp only [List.length_append] at hlength
    omega)
  subst hold₂
  subst hold₁
  simp only [List.length_append] at hold hwide
  have hthird : third.length = payload.length := by omega
  have hcapacity : min chunk maxPayload = chunk := Nat.min_eq_left h
  have hput : Writer.put (packetHeader .data module hash)
      (Writer.holding done (first ++ (second ++ third) ++ rest)) =
        .ok () (Writer.holding (done ++ Header.encode (packetHeader .data module hash))
          (second ++ (third ++ rest))) := by
    have hfills := Writer.put_fills (packetHeader .data module hash) done first
      (second ++ (third ++ rest)) (hfirst.trans hheader.symm)
    simpa using hfills
  have hreserve := Writer.reserve_holding
    (done ++ Header.encode (packetHeader .data module hash)) second (third ++ rest)
  rw [hsecond] at hreserve
  have hroom : ¬ (Writer.holding (done ++ Header.encode (packetHeader .data module hash) ++ second)
      (third ++ rest)).remaining < chunk := by
    rw [Writer.remaining_holding, List.length_append]
    omega
  have hplace : fill ((third ++ rest).take chunk) = (filled, filled.length) := by
    refine hfill _ ?_
    rw [List.length_take, List.length_append]
    omega
  have hwritten := Writer.fillTail_holding
    (done ++ Header.encode (packetHeader .data module hash) ++ second) third rest payload
    hthird.symm
  have hclaimed := Writer.reserve_holding
    (done ++ Header.encode (packetHeader .data module hash) ++ second) payload rest
  have hpatch := Writer.patch_holding (done ++ Header.encode (packetHeader .data module hash))
    second payload (Header.encode (fragmentHeader contentSize offset payload)) rest
    (hfragment.trans hsecond.symm)
  have hsize : Header.size FragmentHeader = 10 := rfl
  simp only [encodeData, Action.bind_apply, hput, hsize, hreserve, Action.get_apply, hcapacity,
    Action.ite_apply, if_neg hroom, Writer.tail_holding, hplace, ← hpayload, hwritten,
    Writer.advance, hlength, hclaimed, Action.pure_apply]
  rw [List.append_assoc _ second payload]
  have hpatch' := hpatch
  simp only [fragmentHeader] at hpatch'
  rw [hpatch']
  simp [dataPacket, fragmentHeader]

/-! ## A fragment, piece by piece -/

section Pieces

variable (module : ModuleName) (hash : ContentHash) (contentSize offset : UInt32) (room : Nat)
  (fill : Fill) (w : Writer)

namespace Writer

/-- Claiming and writing succeeds exactly when there is room. -/
theorem putBytes_apply (new : Bytes) :
    putBytes new w = if new.length ≤ w.remaining then
        .ok () ⟨w.buffer.overwrite w.position new, w.position + new.length⟩
      else .error (w.refusal new.length) w := by
  rw [putBytes, Action.bind_apply, reserve]
  by_cases hroom : new.length ≤ w.remaining
  · rw [if_pos hroom, if_pos hroom]
    rfl
  · rw [if_neg hroom, if_neg hroom]

/-- The buffer once the header of a packet is written. -/
def headed : Bytes :=
  w.buffer.overwrite w.position (Header.encode (packetHeader .data module hash))

/-- The place of the payload, as the fill finds it. -/
def payloadPlace : Bytes :=
  w.buffer.slice (w.position + 110) (w.position + 110 + min room maxPayload)

/-- The length of the payload: what the fill claims, but no more than it was given. -/
def payloadLength : Nat := min (fill (w.payloadPlace room)).2 (min room maxPayload)

/-- The buffer once the payload is in its place, and at last the header of the fragment. -/
def packed : Bytes :=
  let filled := (w.headed module hash).overwrite (w.position + 110)
    ((fill (w.payloadPlace room)).1.take (min room maxPayload))
  filled.overwrite (w.position + 100) (Header.encode
    ({ contentSize, offset, payloadSize := UInt16.ofNat (w.payloadLength room fill) } :
      FragmentHeader))

theorem put_packetHeader : put (packetHeader .data module hash) w =
    if 100 ≤ w.remaining then .ok () ⟨w.headed module hash, w.position + 100⟩
    else .error (w.refusal 100) w := by
  have h := w.putBytes_apply (Header.encode (packetHeader .data module hash))
  rwa [length_packetHeader] at h

theorem length_headed : (w.headed module hash).length = w.buffer.length :=
  Bytes.length_overwrite ..

theorem remaining_headed (n : Nat) :
    remaining ⟨w.headed module hash, w.position + n⟩ = w.remaining - n := by
  rw [remaining, remaining, length_headed, Nat.sub_add_eq]

theorem slice_headed : (w.headed module hash).slice (w.position + 110)
    (w.position + 110 + min room maxPayload) = w.payloadPlace room := by
  have hlength := length_packetHeader .data module hash
  exact Bytes.slice_overwrite_beside (.inr (by omega))

/-- The fill is given what the buffer held before the packet was begun. -/
theorem take_tail_headed :
    (tail ⟨w.headed module hash, w.position + 110⟩).take (min room maxPayload) =
      w.payloadPlace room := by
  have hslice := w.slice_headed module hash room
  rwa [Bytes.slice, Nat.add_sub_cancel_left] at hslice

end Writer

/-- Each piece in its turn: the header, the fragment's header, and the payload. -/
theorem encodeData_apply : encodeData module hash contentSize offset room fill w =
    if w.remaining < 100 then .error ⟨w.position, 100, w.remaining⟩ w
    else if w.remaining < 110 then
      .error ⟨w.position + 100, 10, w.remaining - 100⟩ ⟨w.headed module hash, w.position + 100⟩
    else if w.remaining < 110 + min room maxPayload then
      .error ⟨w.position + 110, min room maxPayload, w.remaining - 110⟩
        ⟨w.headed module hash, w.position + 110⟩
    else .ok (w.payloadLength room fill) ⟨w.packed module hash contentSize offset room fill,
      w.position + 110 + w.payloadLength room fill⟩ := by
  have hsize : Header.size FragmentHeader = 10 := rfl
  by_cases hheader : w.remaining < 100
  · rw [if_pos hheader, encodeData, Action.bind_apply, w.put_packetHeader,
      if_neg (Nat.not_le.mpr hheader)]
    rfl
  have hput : Writer.put (packetHeader .data module hash) w =
      .ok () ⟨w.headed module hash, w.position + 100⟩ := by
    rw [w.put_packetHeader, if_pos (Nat.le_of_not_lt hheader)]
  have hremaining := w.remaining_headed module hash
  by_cases hfragment : w.remaining < 110
  · have hreserve : ¬ 10 ≤ w.remaining - 100 := by omega
    rw [if_neg hheader, if_pos hfragment]
    simp only [encodeData, Action.bind_apply, hput, Writer.reserve, hsize, hremaining,
      if_neg hreserve, Writer.refusal]
  have hreserve : Writer.reserve 10 ⟨w.headed module hash, w.position + 100⟩ =
      .ok (w.position + 100) ⟨w.headed module hash, w.position + 110⟩ := by
    rw [Writer.reserve, hremaining, if_pos (by omega)]
  rw [if_neg hheader, if_neg hfragment]
  simp only [encodeData, Action.bind_apply, hput, hsize, hreserve, Action.get_apply,
    Action.ite_apply, hremaining, Writer.take_tail_headed]
  by_cases hpayload : w.remaining < 110 + min room maxPayload
  · have hshort : w.remaining - 110 < min room maxPayload := by omega
    rw [if_pos hpayload, if_pos hshort, ← hremaining 110]
    rfl
  · have hample : ¬ w.remaining - 110 < min room maxPayload := by omega
    have hlength : min (fill (w.payloadPlace room)).2 (min room maxPayload) ≤ w.remaining - 110 :=
      Nat.le_trans (Nat.min_le_right ..) (Nat.le_of_not_lt hample)
    have hfilled (new : Bytes) : Writer.remaining
        ⟨(w.headed module hash).overwrite (w.position + 110) new, w.position + 110⟩ =
          w.remaining - 110 := by
      rw [← hremaining 110, Writer.remaining, Bytes.length_overwrite]
      rfl
    rw [if_neg hpayload, if_neg hample]
    simp only [Writer.fillTail, Action.modify_apply, Writer.advance, Action.bind_apply,
      Writer.reserve, hfilled, if_pos hlength, Action.pure_apply, Writer.patch]
    rfl

end Pieces

end RomCast
