import RomCast.Proofs.Endpoint.Layout
import RomCast.Proofs.Message.RoundTrip
import RomCast.Proofs.ModuleName

set_option autoImplicit false

/-!
# Which byte strings are packets

A packet has its fields at fixed places, a name that ends at the first zero byte of its field, and
behind the header of a fragment whatever there is of its payload.  Just the byte strings of this
form are decoded, to what their fields say (`decode_grammar`).
-/

namespace RomCast

namespace Bytes

/-! ## Numbers -/

/-- The number that bytes write, the highest first. -/
def bigEndian (b : Bytes) : Nat := b.foldl (fun n byte => n * 256 + byte.toNat) 0

theorem slice_two {b : Bytes} {n : Nat} (h : n + 2 ≤ b.length) :
    b.slice n (n + 2) = [b.byteAt n, b.byteAt (n + 1)] := by
  have hat : ∀ i (hi : i < b.length), b[i] = b.byteAt i := fun i hi => by
    rw [byteAt, List.getElem?_eq_getElem hi, Option.getD_some]
  rw [slice, Nat.add_sub_cancel_left, List.drop_eq_getElem_cons (by omega),
    List.drop_eq_getElem_cons (by omega), hat, hat]
  rfl

theorem slice_four (b : Bytes) (n : Nat) :
    b.slice n (n + 4) = b.slice n (n + 2) ++ b.slice (n + 2) (n + 4) := by
  rw [slice, slice, slice, Nat.add_sub_cancel_left, Nat.add_sub_cancel_left,
    show n + 4 - (n + 2) = 2 by omega, List.take_add (i := 2) (j := 2), List.drop_drop]

theorem toNat_word16_eq {b : Bytes} {n : Nat} (h : n + 2 ≤ b.length) :
    (b.word16 n).toNat = bigEndian (b.slice n (n + 2)) := by
  rw [toNat_word16 h, slice_two h]
  simp [bigEndian]

theorem toNat_word32_eq {b : Bytes} {n : Nat} (h : n + 4 ≤ b.length) :
    (b.word32 n).toNat = bigEndian (b.slice n (n + 4)) := by
  rw [toNat_word32, toNat_word16 (by omega), toNat_word16 (by omega), slice_four,
    slice_two (by omega), slice_two (n := n + 2) (by omega)]
  simp only [bigEndian, List.cons_append, List.nil_append, List.foldl_cons, List.foldl_nil]
  omega

end Bytes

namespace Text

/-- A text whose bytes have no zero in them has no character NUL. -/
theorem nul_notMem_of_zero_notMem {text : String} (h : (0 : UInt8) ∉ utf8 text) :
    '\x00' ∉ text.toList := by
  intro hnul
  rw [utf8_eq_flatMap] at h
  exact h (List.mem_flatMap.mpr ⟨'\x00', hnul, by decide⟩)

end Text

namespace ModuleName

/-! ## The field of a name -/

/-- Names are told apart by their bytes. -/
theorem eq_of_utf8 {name name' : ModuleName} (h : Text.utf8 name.text = Text.utf8 name'.text) :
    name = name' := by
  have htext : name.text = name'.text :=
    Option.some.inj ((Text.decode?_utf8 _).symm.trans ((congrArg Text.decode? h).trans
      (Text.decode?_utf8 _)))
  cases name
  cases name'
  cases htext
  rfl

variable {field : Octets 64} {name : ModuleName}

/-- A name is read from a field exactly when its bytes stand before the field's first zero byte. -/
theorem ofField_eq_ok :
    ofField field = .ok name ↔
      ∃ n, field.bytes.FirstNul n ∧ Text.utf8 name.text = field.bytes.take n := by
  constructor
  · intro h
    have hlength : field.bytes.untilNul.length ≠ field.bytes.length := by
      rw [field.length_bytes]
      intro hfull
      have hfull' : field.bytes.untilNul.length = nameFieldLength := hfull
      simp only [ofField, if_pos hfull'] at h
      cases h
    have hfirst := Bytes.firstNul_of_length_untilNul hlength
    exact ⟨_, hfirst, (utf8_of_ofField h).trans hfirst.untilNul⟩
  · rintro ⟨n, hfirst, hname⟩
    have hlt : n < 64 := field.length_bytes ▸ hfirst.lt
    have hlength : (Text.utf8 name.text).length ≠ nameFieldLength := by
      rw [hname, List.length_take, field.length_bytes]
      show min n 64 ≠ 64
      omega
    obtain ⟨text, hvalid⟩ := name
    simp only [ofField, hfirst.untilNul, ← hname, if_neg hlength, Text.decode?_utf8]
    rw [ofText, dif_pos hvalid]

/-- A field holds a name when it has a zero byte, and in front of the first one a text. -/
theorem exists_ofField :
    (∃ name, ofField field = .ok name) ↔
      ∃ n, field.bytes.FirstNul n ∧ 0 < n ∧ ∃ text, Text.utf8 text = field.bytes.take n := by
  constructor
  · rintro ⟨⟨text, hvalid⟩, h⟩
    obtain ⟨n, hfirst, hname⟩ := ofField_eq_ok.mp h
    refine ⟨n, hfirst, Nat.pos_of_ne_zero ?_, text, hname⟩
    rintro rfl
    have hempty : text.utf8ByteSize = 0 := by
      rw [← Text.length_utf8]
      exact congrArg List.length hname
    exact hvalid.1 (String.utf8ByteSize_eq_zero_iff.mp hempty)
  · rintro ⟨n, hfirst, hpos, text, hname⟩
    have hlt : n < 64 := field.length_bytes ▸ hfirst.lt
    have hsize : text.utf8ByteSize = n := by
      rw [← Text.length_utf8, hname, List.length_take, field.length_bytes]
      omega
    have hvalid : Valid text := by
      refine ⟨?_, ?_, Text.nul_notMem_of_zero_notMem (hname ▸ hfirst.2)⟩
      · rintro rfl
        exact absurd hsize (Nat.ne_of_lt hpos)
      · rwa [← hsize] at hlt
    exact ⟨⟨text, hvalid⟩, ofField_eq_ok.mpr ⟨n, hfirst, hname⟩⟩

end ModuleName

theorem PacketKind.ofWord?_eq_some_iff {w : UInt32} {kind : PacketKind} :
    ofWord? w = some kind ↔ w = kind.toWord := by
  refine ⟨fun h => (Message.ofWord?_eq_some h).symm, ?_⟩
  rintro rfl
  exact ofWord?_toWord kind

/-! ## Headers at their places -/

/-- The header at the front of a byte string. -/
def PacketHeader.at (b : Bytes) : PacketHeader := Header.decode (b.slice 0 100)

/-- The header of a fragment behind it. -/
def FragmentHeader.at (b : Bytes) : FragmentHeader := Header.decode (b.slice 100 110)

section Headers

variable {b : Bytes}

theorem readFront_packetHeader (h : 100 ≤ b.length) :
    Reader.readFront PacketHeader b = .ok (PacketHeader.at b) := by
  have hsize : Header.size PacketHeader ≤ b.length := h
  rw [Reader.readFront_eq, if_pos hsize]
  rfl

theorem result_read_fragmentHeader (h : 110 ≤ b.length) :
    (Reader.read FragmentHeader).result ⟨b, Header.size PacketHeader⟩ =
      .ok (FragmentHeader.at b) := by
  have hsize : Header.size FragmentHeader ≤ b.length - Header.size PacketHeader := by
    show 10 ≤ b.length - 100
    omega
  rw [Reader.result_read_eq, if_pos hsize]
  rfl

theorem bytes_moduleName_at (h : 100 ≤ b.length) :
    (PacketHeader.at b).moduleName.bytes = b.slice 0 64 :=
  Octets.bytes_ofBytes_slice (i := 0) (k := 0) (by omega) h

theorem bytes_contentHash_at (h : 100 ≤ b.length) :
    (PacketHeader.at b).contentHash.bytes = b.slice 64 96 :=
  Octets.bytes_ofBytes_slice (i := 0) (k := 64) (by omega) h

/-- A number is found at its place in the whole. -/
theorem toNat_word32_slice {i j n : Nat} (h : i + n + 4 ≤ j) (hj : j ≤ b.length) :
    ((b.slice i j).word32 n).toNat = Bytes.bigEndian (b.slice (i + n) (i + n + 4)) := by
  rw [Bytes.toNat_word32_eq (by rw [Bytes.length_slice hj]; omega), Bytes.slice_slice b (by omega)]
  rfl

theorem toNat_word16_slice {i j n : Nat} (h : i + n + 2 ≤ j) (hj : j ≤ b.length) :
    ((b.slice i j).word16 n).toNat = Bytes.bigEndian (b.slice (i + n) (i + n + 2)) := by
  rw [Bytes.toNat_word16_eq (by rw [Bytes.length_slice hj]; omega), Bytes.slice_slice b (by omega)]
  rfl

theorem toNat_kind_at (h : 100 ≤ b.length) :
    (PacketHeader.at b).kind.toNat = Bytes.bigEndian (b.slice 96 100) :=
  toNat_word32_slice (i := 0) (n := 96) (by omega) h

end Headers

namespace Fragment

/-! ## Fragments -/

/-- The fields of a fragment are those of a packet, and its payload is what there is of it. -/
structure StandsIn (f : Fragment) (b : Bytes) : Prop where
  contentSize : f.contentSize.toNat = Bytes.bigEndian (b.slice 100 104)
  offset : f.offset.toNat = Bytes.bigEndian (b.slice 104 108)
  payloadSize : f.payloadSize.toNat = Bytes.bigEndian (b.slice 108 110)
  payload : f.payload = (b.drop 110).take (min f.payloadSize.toNat (b.length - 110))

/-- At most one fragment stands in a packet. -/
theorem StandsIn.unique {f f' : Fragment} {b : Bytes} (h : f.StandsIn b) (h' : f'.StandsIn b) :
    f = f' := by
  have hcontentSize := UInt32.toNat_inj.mp (h.contentSize.trans h'.contentSize.symm)
  have hoffset := UInt32.toNat_inj.mp (h.offset.trans h'.offset.symm)
  have hpayloadSize := UInt16.toNat_inj.mp (h.payloadSize.trans h'.payloadSize.symm)
  have hpayload : f.payload = f'.payload := by
    rw [h.payload, h'.payload, hpayloadSize]
  obtain ⟨contentSize, offset, payloadSize, payload⟩ := f
  simp_all

end Fragment

namespace Message

/-- A byte string of the form that packets have. -/
structure IsPacket (b : Bytes) : Prop where
  header : 100 ≤ b.length
  name : ∃ n, (b.slice 0 64).FirstNul n ∧ 0 < n ∧ ∃ text, Text.utf8 text = (b.slice 0 64).take n
  kind : Bytes.bigEndian (b.slice 96 100) ∈ [1, 2, 3]
  data : Bytes.bigEndian (b.slice 96 100) = 3 → 110 ≤ b.length

/-- What the fields of a packet say. -/
structure StandsIn (m : Message) (b : Bytes) : Prop where
  name : ∃ n, (b.slice 0 64).FirstNul n ∧ Text.utf8 m.module.text = (b.slice 0 64).take n
  hash : m.contentHash.bytes = b.slice 64 96
  body : match m.body with
    | .signal => Bytes.bigEndian (b.slice 96 100) = 1
    | .update => Bytes.bigEndian (b.slice 96 100) = 2
    | .data f => Bytes.bigEndian (b.slice 96 100) = 3 ∧ f.StandsIn b

/-- At most one message stands in a packet. -/
theorem StandsIn.unique {b : Bytes} {m m' : Message} (h : m.StandsIn b) (h' : m'.StandsIn b) :
    m = m' := by
  have hmodule : m.module = m'.module := by
    obtain ⟨n, hn, hname⟩ := h.name
    obtain ⟨n', hn', hname'⟩ := h'.name
    obtain rfl := hn.unique hn'
    exact ModuleName.eq_of_utf8 (hname.trans hname'.symm)
  have hhash : m.contentHash = m'.contentHash := Octets.ext_bytes (h.hash.trans h'.hash.symm)
  have hbody := h.body
  have hbody' := h'.body
  obtain ⟨module, hash, body⟩ := m
  obtain ⟨module', hash', body'⟩ := m'
  obtain rfl := hmodule
  obtain rfl := hhash
  cases body <;> cases body' <;> dsimp only at hbody hbody'
  case signal.signal | update.update => rfl
  case data.data f f' => rw [hbody.2.unique hbody'.2]
  all_goals omega

/-- A decoded fragment has its header, and its fields are those of the packet. -/
theorem fragment_of_decode {b : Bytes} {m : Message} {f : Fragment} (h : decode b = .ok m)
    (hf : m.body = .data f) : 110 ≤ b.length ∧ f.StandsIn b := by
  obtain ⟨header, hread, -, -, -, hdata⟩ := decode_eq_ok h
  obtain ⟨fragment, hfragment, rfl⟩ := hdata f hf
  have hlong : 110 ≤ b.length := by
    have hheader := (encode_of_readFront hread).1
    have hinner := congrArg List.length (encode_of_read hfragment)
    rw [LawfulHeader.length_encode, List.length_take, List.length_drop] at hinner
    have hsize : Header.size FragmentHeader = 10 := rfl
    omega
  obtain rfl : FragmentHeader.at b = fragment :=
    Except.ok.inj ((result_read_fragmentHeader hlong).symm.trans hfragment)
  refine ⟨hlong, toNat_word32_slice (i := 100) (n := 0) (by omega) hlong,
    toNat_word32_slice (i := 100) (n := 4) (by omega) hlong,
    toNat_word16_slice (i := 100) (n := 8) (by omega) hlong, ?_⟩
  show (b.drop 110).take _ = _
  rw [List.take_eq_take_min, List.length_drop]

/-- What is decoded is made of the header at the front. -/
theorem header_of_decode {b : Bytes} {m : Message} (h : decode b = .ok m) :
    100 ≤ b.length ∧ ModuleName.ofField (PacketHeader.at b).moduleName = .ok m.module ∧
      (PacketHeader.at b).contentHash = m.contentHash ∧
      Bytes.bigEndian (b.slice 96 100) = m.body.kind.toWord.toNat := by
  obtain ⟨header, hread, hname, hhash, hkind, -⟩ := decode_eq_ok h
  have hlong : 100 ≤ b.length := (encode_of_readFront hread).1
  obtain rfl : PacketHeader.at b = header :=
    Except.ok.inj ((readFront_packetHeader hlong).symm.trans hread)
  refine ⟨hlong, hname, hhash, ?_⟩
  rw [← toNat_kind_at hlong, PacketKind.ofWord?_eq_some_iff.mp hkind]

/-- What is decoded is a packet. -/
theorem isPacket_of_decode {b : Bytes} {m : Message} (h : decode b = .ok m) : IsPacket b := by
  obtain ⟨hlong, hname, -, hword⟩ := header_of_decode h
  refine ⟨hlong, ?_, ?_, fun hdata => ?_⟩
  · rw [← bytes_moduleName_at hlong]
    exact ModuleName.exists_ofField.mp ⟨_, hname⟩
  · rw [hword]
    cases m.body.kind <;> decide
  · cases hbody : m.body with
    | signal => exact absurd (hword.symm.trans hdata) (by rw [hbody]; decide)
    | update => exact absurd (hword.symm.trans hdata) (by rw [hbody]; decide)
    | data f => exact (fragment_of_decode h hbody).1

/-- What is decoded is what the packet says. -/
theorem standsIn_of_decode {b : Bytes} {m : Message} (h : decode b = .ok m) : m.StandsIn b := by
  obtain ⟨hlong, hname, hhash, hword⟩ := header_of_decode h
  refine ⟨?_, ?_, ?_⟩
  · rw [← bytes_moduleName_at hlong]
    exact ModuleName.ofField_eq_ok.mp hname
  · rw [← hhash, bytes_contentHash_at hlong]
  · cases hbody : m.body with
    | signal => rw [hword, hbody]; rfl
    | update => rw [hword, hbody]; rfl
    | data f => exact ⟨by rw [hword, hbody]; rfl, (fragment_of_decode h hbody).2⟩

/-- A byte string of the form of a packet is decoded. -/
theorem exists_decode_of_isPacket {b : Bytes} (h : IsPacket b) : ∃ m, decode b = .ok m := by
  obtain ⟨name, hname⟩ : ∃ name, ModuleName.ofField (PacketHeader.at b).moduleName = .ok name := by
    rw [ModuleName.exists_ofField, bytes_moduleName_at h.header]
    exact h.name
  obtain ⟨kind, hkind⟩ : ∃ kind : PacketKind, (PacketHeader.at b).kind = kind.toWord := by
    have hword := h.kind
    rw [← toNat_kind_at h.header] at hword
    simp only [List.mem_cons, List.not_mem_nil, or_false] at hword
    rcases hword with hone | htwo | hthree
    · exact ⟨.signal, UInt32.toNat_inj.mp hone⟩
    · exact ⟨.update, UInt32.toNat_inj.mp htwo⟩
    · exact ⟨.data, UInt32.toNat_inj.mp hthree⟩
  unfold decode
  rw [readFront_packetHeader h.header]
  simp only [bind, Except.bind, Action.except_mapError_ok, hname, hkind, PacketKind.ofWord?_toWord]
  cases kind with
  | signal => exact ⟨_, rfl⟩
  | update => exact ⟨_, rfl⟩
  | data =>
    have hlong : 110 ≤ b.length := h.data (by rw [← toNat_kind_at h.header, hkind]; rfl)
    rw [result_read_fragmentHeader hlong]
    exact ⟨_, rfl⟩

/-- The byte strings that are decoded are the packets, each to the one message that its fields say;
a decoded fragment has at most its declared payload, and is valid exactly when that is not too long,
all there, and within the content, as numbers without a largest one. -/
theorem decode_grammar (b : Bytes) :
    ((∃ m, decode b = .ok m) ↔ IsPacket b) ∧
    (∀ m, decode b = .ok m ↔ IsPacket b ∧ m.StandsIn b) ∧
    ∀ m f, decode b = .ok m → m.body = .data f →
      f.payload.length ≤ f.payloadSize.toNat ∧
      (f.validate = .ok () ↔
        f.payloadSize.toNat ≤ 1024 ∧ f.payload.length = f.payloadSize.toNat ∧
          f.offset.toNat + f.payloadSize.toNat ≤ f.contentSize.toNat) := by
  refine ⟨⟨fun ⟨_, h⟩ => isPacket_of_decode h, exists_decode_of_isPacket⟩, fun m => ⟨fun h =>
    ⟨isPacket_of_decode h, standsIn_of_decode h⟩, fun ⟨hpacket, hm⟩ => ?_⟩, fun m f h hf => ?_⟩
  · obtain ⟨m', h⟩ := exists_decode_of_isPacket hpacket
    rwa [hm.unique (standsIn_of_decode h)]
  · have hle := length_payload_le h hf
    rw [Fragment.validate_eq_ok_iff]
    exact ⟨hle, by omega⟩

end Message

end RomCast
