import RomCast.Proofs.Checked.Cursor
import RomCast.Proofs.ModuleName

set_option autoImplicit false

/-!
# Checked packets

A packet is decoded through a reader, and its name and payload are slices whose ends were searched
for within what is sliced.  A packet is encoded through a writer; a fragment's payload is written
into a place that was found large enough before.
-/

namespace RomCast

open RomCast.Checked

namespace Bytes

theorem take_length_untilNul (b : Bytes) : b.take b.untilNul.length = b.untilNul :=
  List.prefix_iff_eq_take.mp (List.takeWhile_prefix _) |>.symm

theorem length_untilNul_le (b : Bytes) : b.untilNul.length ≤ b.length :=
  (List.takeWhile_prefix _).length_le

end Bytes

/-! ## Names -/

namespace ModuleName.Checked

/-- The name in a field. -/
def ofField (field : Octets 64) : Except (Trap Invalid) ModuleName :=
  let stop := field.bytes.untilNul.length
  if stop = nameFieldLength then .error (.failure ⟨Text.decodeLossy field.bytes⟩)
  else do
    let name ← slice field.bytes 0 stop
    match Text.decode? name with
    | some text => (ofText text).mapError Trap.failure
    | none => .error (.failure ⟨Text.decodeLossy name⟩)

/-- The field that holds a name. -/
def toField (name : ModuleName) : Except Fault (Octets 64) := do
  let bytes := Text.utf8 name.text
  return Octets.ofBytes 64 (← copy (Bytes.zeros nameFieldLength) 0 bytes.length bytes)

theorem ofField_eq (field : Octets 64) :
    ofField field = (ModuleName.ofField field).mapError Trap.failure := by
  rw [ofField, ModuleName.ofField, slice_zero_eq (Bytes.length_untilNul_le _),
    Bytes.take_length_untilNul]
  by_cases hfull : field.bytes.untilNul.length = nameFieldLength
  · simp only [if_pos hfull]
    rfl
  · simp only [if_neg hfull, lift_ok, pure_bind]
    cases Text.decode? field.bytes.untilNul with
    | none => rfl
    | some text => rfl

theorem toField_eq (name : ModuleName) : toField name = .ok name.toField := by
  have hlength : (Text.utf8 name.text).length < 64 := by
    rw [Text.length_utf8]
    exact name.valid.2.1
  have hzeros : (Bytes.zeros nameFieldLength).length = 64 := Bytes.length_zeros 64
  have hcopy : copy (Bytes.zeros nameFieldLength) 0 (Text.utf8 name.text).length
      (Text.utf8 name.text) = .ok ((Text.utf8 name.text).resize 64) := by
    rw [copy_eq (Nat.zero_add _) (by omega), Bytes.overwrite_zero_of_le (by omega), Bytes.resize,
      List.take_of_length_le (by omega), Bytes.zeros, List.drop_replicate]
    rfl
  rw [toField, hcopy]
  refine congrArg Except.ok (Octets.ext_bytes ?_)
  show ((Text.utf8 name.text).resize 64).resize 64 = (Text.utf8 name.text).resize 64
  rw [Bytes.resize, List.take_of_length_le (Nat.le_of_eq (Bytes.length_resize _ _)),
    Bytes.length_resize]
  exact List.append_nil _

end ModuleName.Checked

/-! ## Decoding -/

namespace Message

/-- A decoded fragment has no more bytes than it declares. -/
def Trimmed (m : Message) : Prop :=
  ∀ f, m.body = .data f → f.payload.length ≤ f.payloadSize.toNat

namespace Checked

/-- Decode a packet. -/
def decode (payload : Bytes) : Except (Trap PacketError) Message := do
  let (header, reader) ←
    (Reader.Checked.read PacketHeader ⟨payload, 0⟩).mapError (Trap.map PacketError.guarded)
  let module ←
    (ModuleName.Checked.ofField header.moduleName).mapError (Trap.map PacketError.invalidName)
  let body ← match PacketKind.ofWord? header.kind with
    | none => .error (.failure (.unknownKind header.kind))
    | some .signal => pure .signal
    | some .update => pure .update
    | some .data => do
        let (fragment, reader) ←
          (Reader.Checked.read FragmentHeader reader).mapError (Trap.map PacketError.guarded)
        let rest ← slice reader.bytes reader.position reader.bytes.length
        let present := min rest.length fragment.payloadSize.toNat
        let bytes ← slice rest 0 present
        pure (.data
          { contentSize := fragment.contentSize
            offset := fragment.offset
            payloadSize := fragment.payloadSize
            payload := bytes })
  return ⟨module, header.contentHash, body⟩

theorem decode_eq {payload : Bytes} (h : payload.length < 2 ^ 64) :
    decode payload = (Message.decode payload).mapError Trap.failure := by
  have hpacket : Header.size PacketHeader = 100 := rfl
  have hfragment : Header.size FragmentHeader = 10 := rfl
  rw [decode, Message.decode, Reader.Checked.read_eq (Nat.zero_le _) h, Reader.readFront_eq,
    Nat.sub_zero, List.drop_zero, hpacket]
  by_cases hsize : 100 ≤ payload.length
  · simp only [if_pos hsize, Action.except_mapError_ok, ok_bind, ModuleName.Checked.ofField_eq]
    obtain ⟨header, hheader⟩ : ∃ header : PacketHeader,
        header = Header.decode (payload.take 100) := ⟨_, rfl⟩
    rw [← hheader]
    cases ModuleName.ofField header.moduleName with
    | error cause => rfl
    | ok module =>
      cases PacketKind.ofWord? header.kind with
      | none => rfl
      | some kind =>
        cases kind with
        | signal => rfl
        | update => rfl
        | data =>
          have hbehind : payload.length - (0 + 100) = payload.length - 100 := by rw [Nat.zero_add]
          simp only [Reader.Checked.read_eq (show 0 + 100 ≤ payload.length from hsize) h,
            Reader.result_read_eq, hfragment, hbehind]
          by_cases hroom : 10 ≤ payload.length - 100
          · have hpresent : 0 + 100 + 10 ≤ payload.length := by omega
            simp only [if_pos hroom, Action.except_mapError_ok, ok_bind, slice_end_eq hpresent,
              slice_zero_eq (Nat.min_le_left _ _), lift_ok, pure_bind, Bytes.take_min_length]
            rfl
          · simp only [if_neg hroom]
            rfl
  · simp only [if_neg hsize]
    rfl

end Checked

/-- Decoding cuts the payload to its declared length. -/
theorem decode_trimmed {payload : Bytes} {m : Message} (h : decode payload = .ok m) :
    m.Trimmed := by
  obtain ⟨header, -, h⟩ := of_bind_eq_ok h
  obtain ⟨module, -, h⟩ := of_bind_eq_ok h
  intro f hf
  split at h
  · cases h
  · cases h
    cases hf
  · cases h
    cases hf
  · obtain ⟨fragment, -, h⟩ := of_bind_eq_ok h
    cases h
    cases hf
    exact List.length_take_le ..

end Message

/-! ## Encoding -/

namespace Checked

/-- Fill a payload: given its place, the place with the payload at its front, and how many bytes
were written. -/
abbrev CheckedFill : Type := Bytes → Except Fault (Bytes × Nat)

/-- A checked fill writes what the other one gives, within the place. -/
structure CheckedFill.Writes (strict : CheckedFill) (fill : Fill) : Prop where
  fits : ∀ place, (fill place).1.length ≤ place.length
  eq_ok : ∀ place, strict place = .ok (Bytes.overwrite place 0 (fill place).1, (fill place).2)

end Checked

namespace Message.Checked

open Writer.Checked

/-- The header of a packet. -/
def packetHeader (kind : PacketKind) (module : ModuleName) (hash : ContentHash) :
    Except Fault PacketHeader := do
  return ⟨← ModuleName.Checked.toField module, hash, kind.toWord⟩

/-- Write a signal or an update. -/
def encodeControl (kind : PacketKind) (module : ModuleName) (hash : ContentHash) :
    Action (Trap GuardError) Writer Unit := do
  assert (kind ≠ .data)
  put (← packetHeader kind module hash)

/-- Write a fragment whose payload `fill` produces. -/
def encodeData (module : ModuleName) (hash : ContentHash) (contentSize offset : UInt32)
    (room : Nat) (fill : CheckedFill) : Action (Trap GuardError) Writer Nat := do
  put (← packetHeader .data module hash)
  let start ← reserve (Header.size FragmentHeader)
  let capacity := min room maxPayload
  let w ← get
  if (← remaining w) < capacity then throw (.failure ⟨w.position, capacity, ← remaining w⟩)
  else do
    let tail ← slice w.buffer w.position w.buffer.length
    let (place, claimed) ← fill (← slice tail 0 capacity)
    modify fun w => { w with buffer := w.buffer.overwrite w.position place }
    let written := min claimed capacity
    advance written
    patch start (start + Header.size FragmentHeader) (Header.encode
      ({ contentSize, offset, payloadSize := UInt16.ofNat written } : FragmentHeader))
    return written

variable {size low : Nat}

theorem packetHeader_eq (kind : PacketKind) (module : ModuleName) (hash : ContentHash) :
    packetHeader kind module hash = .ok (RomCast.packetHeader kind module hash) := by
  rw [packetHeader, ModuleName.Checked.toField_eq]
  rfl

theorem encodeControl_follows (hsize : size < 2 ^ 64) {kind : PacketKind} (hkind : kind ≠ .data)
    (module : ModuleName) (hash : ContentHash) :
    Follows never (Writer.Within size low) (encodeControl kind module hash)
      (RomCast.encodeControl kind module hash) (fun _ => Writer.Within size low)
      fun _ => True := by
  refine follows_lift (assert_eq hkind) ?_
  refine follows_lift (packetHeader_eq kind module hash) ?_
  exact (put_follows hsize _).mono (fun _ h => h)
    (fun _ _ h => h.mono (Nat.le_add_right _ _)) fun _ h => h

/-- Where there is no room for the payload, nothing is asked of the fill: it is not called. -/
theorem encodeData_follows (hsize : size < 2 ^ 64) (module : ModuleName) (hash : ContentHash)
    (contentSize offset : UInt32) (room : Nat) {strict : CheckedFill} {fill : Fill}
    (hfill : low + 110 + min room maxPayload ≤ size → strict.Writes fill) :
    Follows never (Writer.Within size low) (encodeData module hash contentSize offset room strict)
      (RomCast.encodeData module hash contentSize offset room fill)
      (fun _ => Writer.Within size low) fun _ => True := by
  refine follows_lift (packetHeader_eq .data module hash) ?_
  refine (put_follows hsize _).bind fun _ => ?_
  refine (reserve_follows hsize _).bind fun start => ?_
  refine follows_get fun w hw => ?_
  obtain ⟨hstart, hwithin⟩ := hw
  have hlength := hwithin.length_eq
  have hposition := hwithin.le_size
  have hremaining : w.remaining = size - w.position := by rw [Writer.remaining, hlength]
  refine follows_lift (remaining_eq hwithin) ?_
  simp only [Writer.refusal, hremaining]
  refine Follows.ite (fun _ => ?_) fun hroom => ?_
  · exact follows_lift (remaining_eq hwithin) (follows_throw fun _ _ => trivial)
  · -- There is room for the payload, and the fill stays within it.
    have hcapacity : min room maxPayload ≤ size - w.position := Nat.not_lt.mp hroom
    have hclaimed := hwithin.low_le
    have hheader : Header.size PacketHeader = 100 := rfl
    have hfragment : Header.size FragmentHeader = 10 := rfl
    replace hfill := hfill (by omega)
    have htail : slice w.buffer w.position w.buffer.length = .ok w.tail :=
      slice_end_eq (by omega)
    have hfront : slice w.tail 0 (min room maxPayload) =
        .ok (w.tail.take (min room maxPayload)) := by
      refine slice_zero_eq ?_
      rw [Writer.tail, List.length_drop, hlength]
      exact hcapacity
    refine follows_lift htail (follows_lift hfront (follows_lift (hfill.eq_ok _) ?_))
    obtain ⟨place, hplace⟩ : ∃ place, place = w.tail.take (min room maxPayload) := ⟨_, rfl⟩
    have hfits : (fill place).1.length ≤ min room maxPayload := by
      refine Nat.le_trans (hfill.fits place) ?_
      rw [hplace]
      exact List.length_take_le ..
    have hpart : w.buffer.overwrite w.position (Bytes.overwrite place 0 (fill place).1) =
        w.buffer.overwrite w.position (fill place).1 := by
      rw [hplace]
      exact Bytes.overwrite_part (hplace ▸ hfits)
    rw [← hplace]
    have hfilled : Follows never (· = w)
        (modify fun w : Writer => { w with
          buffer := w.buffer.overwrite w.position (Bytes.overwrite place 0 (fill place).1) })
        (Writer.fillTail ((fill place).1.take (min room maxPayload)))
        (fun _ => Writer.Within size (start + Header.size FragmentHeader)) fun _ => True := by
      refine follows_modify_of_eq (fun w' hw' => ?_) (fun w' hw' => ?_) fun _ _ h => h
      · rw [hw', List.take_of_length_le hfits, hpart]
      · rw [hw']
        exact hwithin.overwrite _ _
    refine hfilled.bind fun _ => ?_
    refine (advance_follows hsize _).bind fun _ => ?_
    refine Follows.bind (patch_follows ?_ (Nat.le_add_right _ _)) fun _ => ?_
    · rw [LawfulHeader.length_encode]
    · exact follows_pure fun _ h => h.mono (by omega)

end Message.Checked

end RomCast
