import Mathlib.Data.List.Forall2
import RomCast.Address
import RomCast.Proofs.Text.Parts

set_option autoImplicit false

/-!
# The text of a hardware address

Six parts of two bytes are read, whichever separators stand between them; what is written has
lower-case digits and colons, and is read back as the same address (`reads_parts_writes_colons`).
-/

namespace RomCast

namespace Text

/-! ## Hexadecimal digits -/

def lowerDigits : List Char := "0123456789abcdef".toList

def upperDigits : List Char := "0123456789ABCDEF".toList

/-- A digit of either case, and what it stands for. -/
def IsHexDigit (c : Char) (value : Nat) : Prop :=
  lowerDigits[value]? = some c ∨ upperDigits[value]? = some c

instance (c : Char) (value : Nat) : Decidable (IsHexDigit c value) :=
  inferInstanceAs (Decidable (_ ∨ _))

theorem IsHexDigit.lt {c : Char} {value : Nat} (h : IsHexDigit c value) : value < 16 := by
  rcases h with hlower | hupper
  · exact (List.getElem?_eq_some_iff.mp hlower).1
  · exact (List.getElem?_eq_some_iff.mp hupper).1

/-- What holds of the first characters holds of every ASCII character. -/
theorem forall_ascii {P : Char → Prop} (h : ∀ n < 128, P (Char.ofNat n)) {c : Char}
    (hc : c.toNat < 128) : P c := by
  have hP := h c.toNat hc
  rwa [Char.ofNat_toNat] at hP

theorem toNat_lt_of_hexValue? {c : Char} {value : Nat} (h : hexValue? c = some value) :
    c.toNat < 128 := by
  have hbound : ∀ {high : Char}, high.toNat < 128 → c ≤ high → c.toNat < 128 :=
    fun hhigh hle => Nat.lt_of_le_of_lt hle hhigh
  unfold hexValue? at h
  split at h
  · next hdigit => exact hbound (by decide) hdigit.2
  · split at h
    · next hlower => exact hbound (by decide) hlower.2
    · split at h
      · next hupper => exact hbound (by decide) hupper.2
      · cases h

/-- A character is read as a digit exactly when it is one. -/
theorem hexValue?_eq_some {c : Char} {value : Nat} :
    hexValue? c = some value ↔ IsHexDigit c value := by
  constructor
  · intro h
    have htable : ∀ n < 128, ∀ v ∈ hexValue? (Char.ofNat n), IsHexDigit (Char.ofNat n) v := by
      decide
    exact forall_ascii (P := fun c => ∀ v ∈ hexValue? c, IsHexDigit c v) htable
      (toNat_lt_of_hexValue? h) value h
  · intro h
    have hlt := h.lt
    have hread : ∀ v < 16, lowerDigits[v]?.bind hexValue? = some v ∧
        upperDigits[v]?.bind hexValue? = some v := by decide
    obtain ⟨hlower, hupper⟩ := hread value hlt
    rcases h with h | h
    · rwa [h] at hlower
    · rwa [h] at hupper

/-- The digit that is written for a number. -/
theorem lowerDigits_hexDigit {n : Nat} (h : n < 16) : lowerDigits[n]? = some (hexDigit n) := by
  have htable : ∀ n < 16, lowerDigits[n]? = some (hexDigit n) := by decide
  exact htable n h

end Text

namespace Mac

/-! ## What texts write an address -/

/-- What may stand between two parts. -/
def isSeparator (c : Char) : Bool := c = ':' || c = '-'

/-- A part and the byte that it writes: two digits of either case, or a plus sign and one digit. -/
inductive Part : List Char → UInt8 → Prop where
  | digits {high low : Char} {x y : Nat} {byte : UInt8} (hhigh : Text.IsHexDigit high x)
      (hlow : Text.IsHexDigit low y) (hbyte : byte.toNat = 16 * x + y) : Part [high, low] byte
  | signed {low : Char} {y : Nat} {byte : UInt8} (hlow : Text.IsHexDigit low y)
      (hbyte : byte.toNat = y) : Part ['+', low] byte

/-- A part of two lower-case digits, and the byte that it writes. -/
inductive LowerPart : List Char → UInt8 → Prop where
  | digits {high low : Char} {x y : Nat} {byte : UInt8}
      (hhigh : Text.lowerDigits[x]? = some high) (hlow : Text.lowerDigits[y]? = some low)
      (hbyte : byte.toNat = 16 * x + y) : LowerPart [high, low] byte

/-- A text that writes an address in lower-case digits, with colons between its parts. -/
def ColonForm (text : String) (m : Mac) : Prop :=
  ∃ parts, Text.Parted (fun c => c = ':') text.toList parts ∧
    List.Forall₂ LowerPart parts m.bytes

/-! ## Reading parts -/

theorem unsigned?_plus (c : Char) :
    Text.unsigned? 16 Text.hexValue? ['+', c] = Text.hexValue? c := by
  cases h : Text.hexValue? c <;> simp [Text.unsigned?, Text.digitsValue?, h]

theorem unsigned?_pair {high : Char} (h : high ≠ '+') (low : Char) :
    Text.unsigned? 16 Text.hexValue? [high, low] =
      (Text.hexValue? high).bind fun x => (Text.hexValue? low).map fun y => 16 * x + y := by
  cases hhigh : Text.hexValue? high <;> cases hlow : Text.hexValue? low <;>
    simp [Text.unsigned?, Text.digitsValue?, h, hhigh, hlow, Nat.mul_comm]

/-- No digit is a plus sign. -/
theorem hexValue?_plus : Text.hexValue? '+' = none := by decide

/-- A part is read as the byte that it writes, and nothing else is read. -/
theorem part?_eq_some {part : List Char} {byte : UInt8} :
    part? part = some byte ↔ Part part byte := by
  constructor
  · intro h
    unfold part? at h
    split at h
    · next high low =>
      obtain ⟨n, hn, rfl⟩ := Option.map_eq_some_iff.mp h
      by_cases hplus : high = '+'
      · subst hplus
        rw [unsigned?_plus, Text.hexValue?_eq_some] at hn
        have hlt := hn.lt
        exact .signed hn (UInt8.toNat_ofNat_of_lt' (Nat.lt_trans hlt (by decide)))
      · rw [unsigned?_pair hplus] at hn
        obtain ⟨x, hx, hmap⟩ := Option.bind_eq_some_iff.mp hn
        obtain ⟨y, hy, rfl⟩ := Option.map_eq_some_iff.mp hmap
        rw [Text.hexValue?_eq_some] at hx hy
        have hxlt := hx.lt
        have hylt := hy.lt
        refine .digits hx hy (UInt8.toNat_ofNat_of_lt' ?_)
        show 16 * x + y < 256
        omega
    · cases h
  · intro h
    cases h with
    | @digits high low x y _ hhigh hlow hbyte =>
      rw [← Text.hexValue?_eq_some] at hhigh hlow
      have hplus : high ≠ '+' := by
        rintro rfl
        rw [hexValue?_plus] at hhigh
        cases hhigh
      have hvalue : Text.unsigned? 16 Text.hexValue? [high, low] = some byte.toNat := by
        rw [unsigned?_pair hplus, hhigh, hlow, hbyte]
        rfl
      rw [part?, hvalue, Option.map_some, UInt8.ofNat_toNat]
    | @signed low y _ hlow hbyte =>
      rw [← Text.hexValue?_eq_some] at hlow
      rw [part?, unsigned?_plus, hlow, Option.map_some, ← hbyte, UInt8.ofNat_toNat]

theorem mapM_part?_eq_some {parts : List (List Char)} {bytes : Bytes} :
    parts.mapM part? = some bytes ↔ List.Forall₂ Part parts bytes := by
  induction parts generalizing bytes with
  | nil =>
    rw [List.mapM_nil, List.forall₂_nil_left_iff]
    exact Option.some_inj.trans eq_comm
  | cons part rest ih =>
    rw [List.mapM_cons]
    constructor
    · intro h
      obtain ⟨byte, hbyte, hmore⟩ := Option.bind_eq_some_iff.mp h
      obtain ⟨more, hrest, heq⟩ := Option.bind_eq_some_iff.mp hmore
      obtain rfl := Option.some.inj heq
      exact .cons (part?_eq_some.mp hbyte) (ih.mp hrest)
    · rintro (_ | ⟨hbyte, hrest⟩)
      exact Option.bind_eq_some_iff.mpr ⟨_, part?_eq_some.mpr hbyte,
        Option.bind_eq_some_iff.mpr ⟨_, ih.mpr hrest, rfl⟩⟩

/-- An address is read from the texts whose parts write its bytes, and from no others. -/
theorem parse?_eq_some {text : String} {m : Mac} :
    parse? text = some m ↔ ∃ parts, Text.Parted isSeparator text.toList parts ∧
      List.Forall₂ Part parts m.bytes := by
  have hsplit : parse? text = (Text.splitWhere isSeparator text.toList).mapM part? >>= fun bytes =>
      if h : bytes.length = 6 then some ⟨⟨bytes, h⟩⟩ else none := rfl
  rw [hsplit]
  constructor
  · intro h
    obtain ⟨bytes, hbytes, haddress⟩ := Option.bind_eq_some_iff.mp h
    split at haddress
    · obtain rfl := Option.some.inj haddress
      exact ⟨_, Text.parted_splitWhere isSeparator text.toList, mapM_part?_eq_some.mp hbytes⟩
    · cases haddress
  · rintro ⟨parts, hparted, hparts⟩
    obtain ⟨⟨bytes, hlength⟩⟩ := m
    rw [Text.splitWhere_eq_iff.mpr hparted]
    exact Option.bind_eq_some_iff.mpr ⟨bytes, mapM_part?_eq_some.mpr hparts, dif_pos hlength⟩

/-- A part takes two bytes. -/
theorem Part.utf8ByteSize {part : List Char} {byte : UInt8} (h : Part part byte) :
    (String.ofList part).utf8ByteSize = 2 := by
  have hdigit : ∀ {c : Char} {value : Nat}, Text.IsHexDigit c value → c.utf8Size = 1 := by
    intro c value hc
    have hlt := Text.toNat_lt_of_hexValue? (Text.hexValue?_eq_some.mpr hc)
    exact Char.utf8Size_eq_one_iff.mpr (UInt32.le_iff_toNat_le.mpr (Nat.le_of_lt_succ hlt))
  cases h with
  | digits hhigh hlow _ => simp [hdigit hhigh, hdigit hlow]
  | signed hlow _ =>
    have hplus : "+".utf8ByteSize = 1 := by decide
    simp [hplus, hdigit hlow]

/-- As many parts as an address has bytes write one. -/
theorem exists_bytes {parts : List (List Char)} (hlength : parts.length = 6)
    (h : ∀ part ∈ parts, ∃ byte, Part part byte) :
    ∃ m : Mac, List.Forall₂ Part parts m.bytes := by
  have hbytes : ∃ bytes, List.Forall₂ Part parts bytes := by
    clear hlength
    induction parts with
    | nil => exact ⟨[], .nil⟩
    | cons part rest ih =>
      obtain ⟨⟨byte, hbyte⟩, hrest⟩ := List.forall_mem_cons.mp h
      obtain ⟨bytes, hbytes⟩ := ih hrest
      exact ⟨byte :: bytes, .cons hbyte hbytes⟩
  obtain ⟨bytes, hbytes⟩ := hbytes
  exact ⟨⟨⟨bytes, hbytes.length_eq.symm.trans hlength⟩⟩, hbytes⟩

/-! ## Writing -/

theorem LowerPart.part {part : List Char} {byte : UInt8} (h : LowerPart part byte) :
    Part part byte := by
  obtain ⟨hhigh, hlow, hbyte⟩ := h
  exact .digits (.inl hhigh) (.inl hlow) hbyte

theorem LowerPart.no_separator {part : List Char} {byte : UInt8} (h : LowerPart part byte) :
    ∀ c ∈ part, isSeparator c = false := by
  have hdigits : ∀ c ∈ Text.lowerDigits, isSeparator c = false := by
    have hnone : Text.lowerDigits.any isSeparator = false := by decide
    exact fun c hc => Bool.eq_false_iff.mpr (List.any_eq_false.mp hnone c hc)
  obtain ⟨hhigh, hlow, -⟩ := h
  simp only [List.forall_mem_cons, List.not_mem_nil, false_imp_iff, implies_true, and_true]
  exact ⟨hdigits _ (List.mem_of_getElem? hhigh), hdigits _ (List.mem_of_getElem? hlow)⟩

/-- The digits that are written for a byte are the only lower-case ones that write it. -/
theorem lowerPart_iff {part : List Char} {byte : UInt8} :
    LowerPart part byte ↔ part = Text.hexOfByte byte := by
  have hlt : byte.toNat < 256 := byte.toNat_lt
  constructor
  · rintro ⟨hhigh, hlow, hbyte⟩
    rename_i high low x y
    have hx : x < 16 := Text.IsHexDigit.lt (.inl hhigh)
    have hy : y < 16 := Text.IsHexDigit.lt (.inl hlow)
    rw [Text.lowerDigits_hexDigit hx] at hhigh
    rw [Text.lowerDigits_hexDigit hy] at hlow
    rw [Text.hexOfByte, hbyte, show (16 * x + y) / 16 = x by omega,
      show (16 * x + y) % 16 = y by omega, Option.some.inj hhigh, Option.some.inj hlow]
  · rintro rfl
    exact .digits (Text.lowerDigits_hexDigit (by omega)) (Text.lowerDigits_hexDigit (by omega))
      (by omega)

theorem forall₂_lowerPart_iff {parts : List (List Char)} {bytes : Bytes} :
    List.Forall₂ LowerPart parts bytes ↔ parts = bytes.map Text.hexOfByte := by
  have hparts : LowerPart = fun part byte => part = Text.hexOfByte byte := by
    funext part byte
    exact propext lowerPart_iff
  rw [hparts, ← List.forall₂_map_right_iff, List.forall₂_eq_eq_eq]

/-- The parts of what is written for an address, whichever characters may separate them. -/
theorem parted_render (m : Mac) {separates : Char → Bool} (hcolon : separates ':' = true)
    (h : ∀ c, isSeparator c = false → separates c = false) :
    Text.Parted separates m.render.toList (m.bytes.map Text.hexOfByte) := by
  rw [render, String.toList_ofList]
  refine Text.parted_intersperse hcolon ?_ ?_
  · intro hnil
    have hlength := congrArg List.length hnil
    rw [List.length_map, bytes, m.octets.length_eq] at hlength
    cases hlength
  · intro part hpart c hc
    obtain ⟨byte, -, rfl⟩ := List.mem_map.mp hpart
    exact h c ((lowerPart_iff.mpr rfl).no_separator c hc)

/-- An address has one text in lower-case digits with colons, and this is what is written. -/
theorem colonForm_iff {text : String} {m : Mac} : ColonForm text m ↔ text = m.render := by
  constructor
  · rintro ⟨parts, hparted, hparts⟩
    rw [forall₂_lowerPart_iff.mp hparts] at hparted
    rw [render, ← hparted.eq_intersperse, String.ofList_toList]
  · rintro rfl
    exact ⟨_, parted_render m (by decide) fun c hc => by simp_all [isSeparator],
      forall₂_lowerPart_iff.mpr rfl⟩

theorem parse?_render (m : Mac) : parse? m.render = some m :=
  parse?_eq_some.mpr ⟨_, parted_render m (by decide) fun _ hc => hc,
    (forall₂_lowerPart_iff.mpr rfl).imp fun _ _ hpart => hpart.part⟩

/-- A text is read as an address exactly when it falls into six parts of two bytes that each write a
byte, and the address has these bytes.  Every address is read back from what is written for it,
which is the one text of it in lower-case digits with colons; so writing what has been read, and
doing that again, comes to the same text. -/
theorem reads_parts_writes_colons (text : String) (m : Mac) :
    ((∃ read, parse? text = some read) ↔
      ∃ parts, Text.Parted isSeparator text.toList parts ∧ parts.length = 6 ∧
        ∀ part ∈ parts, (String.ofList part).utf8ByteSize = 2 ∧ ∃ byte, Part part byte) ∧
    (parse? text = some m ↔
      ∃ parts, Text.Parted isSeparator text.toList parts ∧ List.Forall₂ Part parts m.bytes) ∧
    parse? m.render = some m ∧
    (ColonForm text m ↔ text = m.render) ∧
    (parse? text = some m →
      ColonForm m.render m ∧ (parse? m.render).map render = some m.render) := by
  refine ⟨⟨?_, ?_⟩, parse?_eq_some, parse?_render m, colonForm_iff, fun _ => ⟨?_, ?_⟩⟩
  · rintro ⟨read, hread⟩
    obtain ⟨parts, hparted, hparts⟩ := parse?_eq_some.mp hread
    refine ⟨parts, hparted, hparts.length_eq.trans read.octets.length_eq, fun part hpart => ?_⟩
    obtain ⟨i, hi, rfl⟩ := List.getElem_of_mem hpart
    have hbyte := (List.forall₂_iff_get.mp hparts).2 i hi (hparts.length_eq ▸ hi)
    exact ⟨hbyte.utf8ByteSize, _, hbyte⟩
  · rintro ⟨parts, hparted, hlength, hparts⟩
    obtain ⟨read, hread⟩ := exists_bytes hlength fun part hpart => (hparts part hpart).2
    exact ⟨read, parse?_eq_some.mpr ⟨parts, hparted, hread⟩⟩
  · exact colonForm_iff.mpr rfl
  · rw [parse?_render, Option.map_some]

example : (parse? "+f-0A:02-00:ff:Fe").map render = some "0f:0a:02:00:ff:fe" := by decide +kernel

end Mac

end RomCast
