import RomCast.Proofs.Cursor.Appending
import RomCast.Proofs.Endpoint.Inbound
import RomCast.Proofs.Header.Canonical

set_option autoImplicit false

/-!
# Packets survive the way there and back

What the encoders write is decoded to what they were given, whatever bytes follow; and what was
decoded is encoded to a packet that says the same, and that has the same bytes unless the name was
followed by something else than zeros (`packets_round_trip`).
-/

namespace RomCast

/-! ## What a writer has written -/

namespace Writer

variable {α : Type}

/-- The bytes that have been claimed since a writer was at an earlier place. -/
def wrote (w w' : Writer) : Bytes := w'.buffer.slice w.position w'.position

/-- A step that needs this much room: where it has it, it returns a value and writes bytes of which
`Q` holds, and it fails only where it has less. -/
def Yields (fill : Action GuardError Writer α) (room : Nat) (Q : α → Bytes → Prop) : Prop :=
  ∀ w : Writer, match fill w with
    | .ok a w' => Q a (w.wrote w')
    | .error _ _ => w.remaining < room

theorem Yields.mono {fill : Action GuardError Writer α} {room : Nat} {Q Q' : α → Bytes → Prop}
    (h : Yields fill room Q) (hQ : ∀ a bytes, Q a bytes → Q' a bytes) : Yields fill room Q' := by
  intro w
  have hw := h w
  cases hfill : fill w with
  | ok a w' =>
    rw [hfill] at hw
    exact hQ a _ hw
  | error e w' =>
    rw [hfill] at hw
    exact hw

theorem Yields.exists_ok {fill : Action GuardError Writer α} {room : Nat} {Q : α → Bytes → Prop}
    (h : Yields fill room Q) {w : Writer} (hroom : room ≤ w.remaining) :
    ∃ a w', fill w = .ok a w' ∧ Q a (w.wrote w') := by
  have hw := h w
  cases hfill : fill w with
  | ok a w' =>
    rw [hfill] at hw
    exact ⟨a, w', rfl, hw⟩
  | error e w' =>
    rw [hfill] at hw
    exact absurd hroom (Nat.not_le_of_lt hw)

/-- What a step returns may be dropped. -/
theorem Yields.drop {fill : Action GuardError Writer α} {room : Nat} {Q : α → Bytes → Prop}
    {P : Bytes → Prop} (h : Yields fill room Q) (hP : ∀ a bytes, Q a bytes → P bytes) :
    Yields (do let _ ← fill) room fun _ => P := by
  intro w
  have hw := h w
  rw [Action.bind_apply]
  cases hfill : fill w with
  | ok a w' =>
    rw [hfill] at hw
    exact hP a _ hw
  | error e w' =>
    rw [hfill] at hw
    exact hw

/-- Writing where there is room. -/
theorem FillsWithin.wrote {room : Nat} {fill : Action GuardError Writer Unit} {bytes : Bytes}
    (h : FillsWithin room fill bytes) {w : Writer} (hpos : 0 < bytes.length)
    (hbytes : bytes.length ≤ w.remaining) (hroom : room ≤ w.remaining) :
    ∃ w', fill w = .ok () w' ∧ w.wrote w' = bytes := by
  obtain ⟨buffer, position⟩ := w
  have hremaining : bytes.length ≤ buffer.length - position := hbytes
  have hroom' : room ≤ buffer.length - position := hroom
  obtain ⟨old, rest, hsplit, hold⟩ :=
    Bytes.exists_split (n := bytes.length) (b := buffer.drop position) (by
      rw [List.length_drop]
      exact hremaining)
  have hdone : (buffer.take position).length = position := by
    rw [List.length_take]
    omega
  have hholding : (⟨buffer, position⟩ : Writer) = holding (buffer.take position) (old ++ rest) := by
    rw [holding, hdone, ← hsplit, List.take_append_drop]
  have hlength : old.length + rest.length = buffer.length - position := by
    have htotal := congrArg List.length hsplit
    rw [List.length_drop, List.length_append] at htotal
    exact htotal.symm
  refine ⟨holding (buffer.take position ++ bytes) rest, ?_, ?_⟩
  · exact (congrArg fill hholding).trans (h (buffer.take position) old rest hold (by omega))
  · show Bytes.slice (buffer.take position ++ bytes ++ rest) position
      (buffer.take position ++ bytes).length = bytes
    have hmiddle := Bytes.slice_middle (buffer.take position) bytes rest
    rw [hdone, ← List.append_assoc] at hmiddle
    rw [List.length_append, hdone]
    exact hmiddle

end Writer

/-! ## Signals and updates -/

theorem encodeControl_yields (kind : PacketKind) (module : ModuleName) (hash : ContentHash) :
    Writer.Yields (encodeControl kind module hash) 100
      fun _ bytes => bytes = controlPacket kind module hash := by
  intro w
  by_cases hroom : 100 ≤ w.remaining
  · have hlength := length_controlPacket kind module hash
    obtain ⟨w', hok, hwrote⟩ :=
      ((encodeControl_fills kind module hash).within 100).wrote (w := w)
        (by rw [hlength]; decide) (by rw [hlength]; exact hroom) hroom
    rw [hok]
    exact hwrote
  · cases hresult : encodeControl kind module hash w with
    | error e w' => exact Nat.lt_of_not_le hroom
    | ok a w' =>
      obtain ⟨hfits, -⟩ := Writer.putBytes_eq_ok hresult
      rw [LawfulHeader.length_encode] at hfits
      exact absurd hfits hroom

/-! ## Fragments -/

/-- The fill that copies a payload. -/
def Fill.copying (payload : Bytes) : Fill := fun _ => (payload, payload.length)

/-- Writing a fragment succeeds only where there is room for the largest payload that was asked
for. -/
theorem encodeData_eq_ok {module : ModuleName} {hash : ContentHash} {contentSize offset : UInt32}
    {room n : Nat} {fill : Fill} {w w' : Writer}
    (h : encodeData module hash contentSize offset room fill w = .ok n w') :
    110 + min room maxPayload ≤ w.remaining ∧
      ∃ place, n = min (fill place).2 (min room maxPayload) := by
  rw [encodeData_apply] at h
  split at h
  · cases h
  · split at h
    · cases h
    · split at h
      · cases h
      · rename_i hroom
        cases h
        exact ⟨Nat.le_of_not_lt hroom, w.payloadPlace room, rfl⟩

/-- Never more than the largest payload is written, whatever is asked for. -/
theorem encodeData_min (module : ModuleName) (hash : ContentHash) (contentSize offset : UInt32)
    (room : Nat) (fill : Fill) :
    encodeData module hash contentSize offset room fill =
      encodeData module hash contentSize offset (min room maxPayload) fill := by
  unfold encodeData
  rw [Nat.min_assoc, Nat.min_self]

theorem encodeData_yields (module : ModuleName) (hash : ContentHash)
    (contentSize offset : UInt32) {room : Nat} {payload : Bytes}
    (h : payload.length ≤ min room maxPayload) :
    Writer.Yields (encodeData module hash contentSize offset room (.copying payload))
      (110 + min room maxPayload) fun n bytes =>
        n = payload.length ∧ bytes = dataPacket module hash contentSize offset payload := by
  intro w
  by_cases hroom : 110 + min room maxPayload ≤ w.remaining
  · have hcopy : ∀ place : Bytes, place.length = min room maxPayload →
        Fill.copying payload place = (payload, payload.length) := fun _ _ => rfl
    have hfills := encodeData_fills module hash contentSize offset
      (Nat.min_le_right room maxPayload) hcopy
    rw [List.take_of_length_le h, ← encodeData_min] at hfills
    have hlength := length_dataPacket module hash contentSize offset payload
    obtain ⟨w', hok, hwrote⟩ := hfills.wrote (w := w) (by omega) (by omega) hroom
    obtain ⟨n, w₁, hdata, hpure⟩ := Action.of_bind_eq_ok hok
    cases hpure
    obtain ⟨-, place, hn⟩ := encodeData_eq_ok hdata
    rw [hdata]
    exact ⟨hn.trans (Nat.min_eq_left h), hwrote⟩
  · cases hresult : encodeData module hash contentSize offset room (.copying payload) w with
    | error e w' => exact Nat.lt_of_not_le hroom
    | ok n w' => exact absurd (encodeData_eq_ok hresult).1 hroom

namespace Message

/-! ## There and back -/

/-- A fragment's payload is all there, and not too long to be sent. -/
def Complete (m : Message) : Prop :=
  match m.body with
  | .signal => True
  | .update => True
  | .data f => f.payload.length = f.payloadSize.toNat ∧ f.payload.length ≤ maxPayload

/-- Write a packet that says the same. -/
def encode (m : Message) : Action GuardError Writer Unit :=
  match m.body with
  | .signal => encodeControl .signal m.module m.contentHash
  | .update => encodeControl .update m.module m.contentHash
  | .data f => do
      let _ ← encodeData m.module m.contentHash f.contentSize f.offset f.payload.length
        (.copying f.payload)

/-- Its bytes. -/
def bytes (m : Message) : Bytes :=
  match m.body with
  | .signal => controlPacket .signal m.module m.contentHash
  | .update => controlPacket .update m.module m.contentHash
  | .data f => dataPacket m.module m.contentHash f.contentSize f.offset f.payload

theorem encode_yields (m : Message) (h : m.Complete) :
    Writer.Yields m.encode m.bytes.length fun _ bytes => bytes = m.bytes := by
  obtain ⟨module, hash, body⟩ := m
  cases body with
  | signal =>
    show Writer.Yields _ (controlPacket .signal module hash).length _
    rw [length_controlPacket]
    exact encodeControl_yields .signal module hash
  | update =>
    show Writer.Yields _ (controlPacket .update module hash).length _
    rw [length_controlPacket]
    exact encodeControl_yields .update module hash
  | data f =>
    obtain ⟨-, hshort⟩ : f.payload.length = f.payloadSize.toNat ∧
      f.payload.length ≤ maxPayload := h
    have hmin : min f.payload.length maxPayload = f.payload.length := Nat.min_eq_left hshort
    have hroom : f.payload.length ≤ min f.payload.length maxPayload := Nat.le_of_eq hmin.symm
    have hyields := encodeData_yields module hash f.contentSize f.offset hroom
    rw [hmin, ← length_dataPacket module hash f.contentSize f.offset f.payload] at hyields
    exact hyields.drop fun n bytes hbytes => hbytes.2

theorem decode_bytes_append (m : Message) (h : m.Complete) (rest : Bytes) :
    decode (m.bytes ++ rest) = .ok m := by
  obtain ⟨module, hash, body⟩ := m
  cases body with
  | signal => exact decode_control_append module hash .signal nofun rest
  | update => exact decode_control_append module hash .update nofun rest
  | data f =>
    obtain ⟨hwhole, hshort⟩ : f.payload.length = f.payloadSize.toNat ∧
      f.payload.length ≤ maxPayload := h
    have hcarrying : Fragment.carrying f.contentSize f.offset f.payload = f := by
      rw [Fragment.carrying, hwhole, UInt16.ofNat_toNat]
    have hdecode := decode_data_append module hash f.contentSize f.offset hshort rest
    rw [hcarrying] at hdecode
    exact hdecode

/-- What was decoded stands in the packet. -/
theorem decode_eq_ok {b : Bytes} {m : Message} (h : decode b = .ok m) :
    ∃ header : PacketHeader, Reader.readFront PacketHeader b = .ok header ∧
      ModuleName.ofField header.moduleName = .ok m.module ∧
      header.contentHash = m.contentHash ∧
      PacketKind.ofWord? header.kind = some m.body.kind ∧
      ∀ f, m.body = .data f → ∃ fragment : FragmentHeader,
        (Reader.read FragmentHeader).result ⟨b, Header.size PacketHeader⟩ = .ok fragment ∧
        f = { contentSize := fragment.contentSize
              offset := fragment.offset
              payloadSize := fragment.payloadSize
              payload := (b.drop (Header.size PacketHeader + Header.size FragmentHeader)).take
                fragment.payloadSize.toNat } := by
  unfold decode at h
  cases hread : Reader.readFront PacketHeader b with
  | error cause =>
    rw [hread] at h
    cases h
  | ok header =>
    rw [hread] at h
    simp only [bind, Except.bind, Action.except_mapError_ok] at h
    refine ⟨header, rfl, ?_⟩
    cases hname : ModuleName.ofField header.moduleName with
    | error cause =>
      rw [hname] at h
      cases h
    | ok module =>
      rw [hname] at h
      simp only [Action.except_mapError_ok] at h
      cases hkind : PacketKind.ofWord? header.kind with
      | none =>
        rw [hkind] at h
        cases h
      | some kind =>
        rw [hkind] at h
        cases kind with
        | signal =>
          cases h
          exact ⟨rfl, rfl, rfl, fun f hf => by cases hf⟩
        | update =>
          cases h
          exact ⟨rfl, rfl, rfl, fun f hf => by cases hf⟩
        | data =>
          cases hfragment : (Reader.read FragmentHeader).result
              ⟨b, Header.size PacketHeader⟩ with
          | error cause =>
            simp only [hfragment, Action.except_mapError_error] at h
            cases h
          | ok fragment =>
            simp only [hfragment, Action.except_mapError_ok] at h
            cases h
            exact ⟨rfl, rfl, rfl, fun f hf => ⟨fragment, rfl, by cases hf; rfl⟩⟩

/-- A decoded fragment carries no more bytes than it declares. -/
theorem length_payload_le {bytes : Bytes} {m : Message} {f : Fragment}
    (hdecode : decode bytes = .ok m) (hbody : m.body = .data f) :
    f.payload.length ≤ f.payloadSize.toNat := by
  obtain ⟨header, -, -, -, -, hfragment⟩ := decode_eq_ok hdecode
  obtain ⟨fragment, -, rfl⟩ := hfragment f hbody
  exact List.length_take_le _ _

theorem ofWord?_eq_some {w : UInt32} {kind : PacketKind} (h : PacketKind.ofWord? w = some kind) :
    kind.toWord = w := by
  unfold PacketKind.ofWord? at h
  split at h
  · cases h
    exact (‹w = 1›).symm
  · split at h
    · cases h
      exact (‹w = 2›).symm
    · split at h
      · cases h
        exact (‹w = 3›).symm
      · cases h

/-- A header at the front that was read has just these bytes. -/
theorem encode_of_readFront {b : Bytes} {header : PacketHeader}
    (h : Reader.readFront PacketHeader b = .ok header) :
    100 ≤ b.length ∧ Header.encode header = b.take 100 ∧
      header.moduleName.bytes = b.take 64 := by
  have hsize : Header.size PacketHeader = 100 := rfl
  rw [Reader.readFront_eq, hsize] at h
  by_cases hlength : 100 ≤ b.length
  · rw [if_pos hlength] at h
    obtain rfl := Except.ok.inj h
    have htake : (b.take 100).length = Header.size PacketHeader := by
      rw [List.length_take, hsize]
      omega
    refine ⟨hlength, PacketHeader.encode_decode htake, ?_⟩
    show (Octets.ofBytes 64 (b.take 100)).bytes = b.take 64
    rw [Octets.bytes_ofBytes (by omega), List.take_take]
    rfl
  · rw [if_neg hlength] at h
    cases h

theorem encode_of_read {b : Bytes} {fragment : FragmentHeader}
    (h : (Reader.read FragmentHeader).result ⟨b, Header.size PacketHeader⟩ = .ok fragment) :
    Header.encode fragment = (b.drop 100).take 10 := by
  have hsize : Header.size PacketHeader = 100 := rfl
  have hinner : Header.size FragmentHeader = 10 := rfl
  rw [Reader.result_read_eq, hsize, hinner] at h
  by_cases hlength : 10 ≤ b.length - 100
  · rw [if_pos hlength] at h
    obtain rfl := Except.ok.inj h
    refine FragmentHeader.encode_decode ?_
    rw [List.length_take, List.length_drop, hinner]
    omega
  · rw [if_neg hlength] at h
    cases h

/-- A packet whose name field is filled up with zeros is its own encoding, followed by what was
ignored. -/
theorem bytes_eq_take {b : Bytes} {m : Message} (h : decode b = .ok m) (hcomplete : m.Complete)
    (hpadded : Bytes.Padded (b.take 64)) : m.bytes = b.take m.bytes.length := by
  obtain ⟨header, hread, hname, hhash, hkind, hdata⟩ := decode_eq_ok h
  obtain ⟨hlong, hencode, hfield⟩ := encode_of_readFront hread
  rw [← hfield] at hpadded
  have hheader : packetHeader m.body.kind m.module m.contentHash = header := by
    rw [packetHeader, ModuleName.toField_of_ofField hname hpadded, ← hhash, ofWord?_eq_some hkind]
  obtain ⟨module, hash, body⟩ := m
  have hcontrol : ∀ kind, kind = body.kind →
      controlPacket kind module hash = b.take (controlPacket kind module hash).length := by
    rintro kind rfl
    rw [length_controlPacket, ← hencode, ← hheader]
    rfl
  cases body with
  | signal => exact hcontrol .signal rfl
  | update => exact hcontrol .update rfl
  | data f =>
    obtain ⟨fragment, hfragment, hf⟩ := hdata f rfl
    obtain ⟨hwhole, -⟩ : f.payload.length = f.payloadSize.toNat ∧
      f.payload.length ≤ maxPayload := hcomplete
    have hsame : fragmentHeader f.contentSize f.offset f.payload = fragment := by
      rw [fragmentHeader, hwhole, UInt16.ofNat_toNat, hf]
    have hpayload : f.payload = (b.drop 110).take f.payload.length := by
      rw [hwhole, hf]
      rfl
    have hfront : b.take 110 = b.take 100 ++ (b.drop 100).take 10 :=
      List.take_add (i := 100) (j := 10)
    show dataPacket module hash f.contentSize f.offset f.payload = b.take (dataPacket module hash
      f.contentSize f.offset f.payload).length
    rw [length_dataPacket, List.take_add, hfront, ← hpayload, ← encode_of_read hfragment, ← hsame,
      ← hencode, ← hheader, List.append_assoc]
    rfl

/-- Decoding what was written gives back what it was written from, whatever follows it; and writing
what was decoded gives a packet that is decoded to the same, and that is the front of the one that
was decoded if the field of the name is filled up with zeros there.  Nothing is written only where
there is no room for it. -/
theorem packets_round_trip (module : ModuleName) (hash : ContentHash) (contentSize offset : UInt32)
    (payload rest : Bytes) (h : payload.length ≤ maxPayload) :
    Writer.Yields (encodeControl .signal module hash) 100
      (fun _ bytes => decode (bytes ++ rest) = .ok ⟨module, hash, .signal⟩) ∧
    Writer.Yields (encodeControl .update module hash) 100
      (fun _ bytes => decode (bytes ++ rest) = .ok ⟨module, hash, .update⟩) ∧
    (∀ room, payload.length ≤ room →
      Writer.Yields (encodeData module hash contentSize offset room (.copying payload))
        (110 + min room maxPayload) fun n bytes => n = payload.length ∧
          ∃ f : Fragment, decode (bytes ++ rest) = .ok ⟨module, hash, .data f⟩ ∧
            f.contentSize = contentSize ∧ f.offset = offset ∧
            f.payloadSize.toNat = payload.length ∧ f.payload = payload) ∧
    (∀ b m, decode b = .ok m → m.Complete →
      Writer.Yields m.encode m.bytes.length fun _ bytes =>
        decode (bytes ++ rest) = .ok m ∧
          (Bytes.Padded (b.take 64) → bytes = b.take bytes.length)) := by
  refine ⟨?_, ?_, fun room hroom => ?_, fun b m hdecode hcomplete => ?_⟩
  · refine (encodeControl_yields .signal module hash).mono ?_
    rintro a bytes rfl
    exact decode_control_append module hash .signal nofun rest
  · refine (encodeControl_yields .update module hash).mono ?_
    rintro a bytes rfl
    exact decode_control_append module hash .update nofun rest
  · refine (encodeData_yields module hash contentSize offset (Nat.le_min.mpr ⟨hroom, h⟩)).mono ?_
    rintro n bytes ⟨hn, rfl⟩
    have hmax : payload.length ≤ 1024 := h
    refine ⟨hn, _, decode_data_append module hash contentSize offset h rest, rfl, rfl, ?_, rfl⟩
    show (UInt16.ofNat payload.length).toNat = payload.length
    rw [UInt16.toNat_ofNat']
    omega
  · refine (encode_yields m hcomplete).mono ?_
    rintro a bytes rfl
    exact ⟨decode_bytes_append m hcomplete rest, bytes_eq_take hdecode hcomplete⟩

/-- A fragment of three bytes, written with room to spare, is found again, and so is the packet that
was decoded from it with a byte behind it. -/
theorem fragment_there_and_back :
    let name : ModuleName := ⟨"rom", ModuleName.valid_rom⟩
    let hash : ContentHash := Octets.fill 32 1
    let w : Writer := ⟨Bytes.zeros 200, 20⟩
    let m : Message := ⟨name, hash, .data (.carrying 6 2 [7, 8, 9])⟩
    (∃ w' f, encodeData name hash 6 2 8 (.copying [7, 8, 9]) w = .ok 3 w' ∧
      decode (w.wrote w' ++ [5]) = .ok ⟨name, hash, .data f⟩ ∧ f.payload = [7, 8, 9]) ∧
    ∃ w', m.encode w = .ok () w' ∧ decode (w.wrote w' ++ [5]) = .ok m := by
  intro name hash w m
  have hdecode : decode (dataPacket name hash 6 2 [7, 8, 9] ++ [0]) = .ok m :=
    decode_data_append name hash 6 2 (by decide) [0]
  obtain ⟨-, -, hdata, hagain⟩ :=
    packets_round_trip name hash 6 2 [7, 8, 9] [5] (by decide)
  have hremaining : w.remaining = 180 := by
    show (Bytes.zeros 200).length - 20 = 180
    rw [Bytes.length_zeros]
  have hlength : m.bytes.length = 113 := length_dataPacket name hash 6 2 [7, 8, 9]
  obtain ⟨n, w', hok, rfl, f, hfound, -, -, -, hpayload⟩ :=
    (hdata 8 (by decide)).exists_ok (w := w) (by rw [hremaining]; decide)
  obtain ⟨_, w'', hok', hsame, -⟩ :=
    (hagain _ m hdecode ⟨rfl, by decide⟩).exists_ok (w := w) (by rw [hremaining, hlength]; decide)
  exact ⟨⟨w', f, hok, hfound, hpayload⟩, w'', hok', hsame⟩

end Message

end RomCast
