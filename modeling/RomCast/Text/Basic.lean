import RomCast.Bytes

set_option autoImplicit false

/-!
# Text and bytes

How text is encoded, how numbers and bytes are written in it, and how it is cut into parts.
-/

namespace RomCast.Text

/-! ## UTF-8

Text on the wire and in files is UTF-8.  `decode?` reads well-formed text only.  `decodeLossy` reads
anything: every maximal piece that begins like a character but does not complete one becomes the
replacement character. -/

/-- The bytes of a text. -/
def utf8 (text : String) : Bytes := text.toUTF8.toList

/-- The text that a byte string encodes, if it is well-formed UTF-8. -/
def decode? (bytes : Bytes) : Option String := String.fromUTF8? (ByteArray.mk bytes.toArray)

/-- How many bytes a character has that begins with `b`, and the range its second byte lies in.
`none` when no character begins with `b`. -/
def lead? (b : UInt8) : Option (Nat × UInt8 × UInt8) :=
  if b ≤ 0x7f then some (1, 0x80, 0xbf)
  else if 0xc2 ≤ b && b ≤ 0xdf then some (2, 0x80, 0xbf)
  else if b = 0xe0 then some (3, 0xa0, 0xbf)
  else if b = 0xed then some (3, 0x80, 0x9f)
  else if 0xe1 ≤ b && b ≤ 0xef then some (3, 0x80, 0xbf)
  else if b = 0xf0 then some (4, 0x90, 0xbf)
  else if 0xf1 ≤ b && b ≤ 0xf3 then some (4, 0x80, 0xbf)
  else if b = 0xf4 then some (4, 0x80, 0x8f)
  else none

/-- How many of the bytes behind a lead byte belong to its character: at most `n`, the first within
`low` and `high`, the others any continuation. -/
def tailCount : Nat → UInt8 → UInt8 → Bytes → Nat
  | 0, _, _, _ => 0
  | _ + 1, _, _, [] => 0
  | n + 1, low, high, b :: rest =>
      if low ≤ b && b ≤ high then tailCount n 0x80 0xbf rest + 1 else 0

/-- The code point of a complete character. -/
def codePoint : Bytes → Nat
  | [a] => a.toNat
  | [a, b] => (a.toNat % 32) * 64 + b.toNat % 64
  | [a, b, c] => ((a.toNat % 16) * 64 + b.toNat % 64) * 64 + c.toNat % 64
  | [a, b, c, d] => (((a.toNat % 8) * 64 + b.toNat % 64) * 64 + c.toNat % 64) * 64 + d.toNat % 64
  | _ => 0xfffd

/-- The characters of a byte string, with `U+FFFD` for every maximal ill-formed piece.  `fuel`
bounds the number of pieces. -/
def decodePieces : Nat → Bytes → List Char
  | 0, _ => []
  | _, [] => []
  | fuel + 1, b :: rest =>
      match lead? b with
      | none => '\ufffd' :: decodePieces fuel rest
      | some (n, low, high) =>
          let k := tailCount (n - 1) low high rest
          let c := if k = n - 1 then Char.ofNat (codePoint (b :: rest.take k)) else '\ufffd'
          c :: decodePieces fuel (rest.drop k)

/-- Any byte string as text. -/
def decodeLossy (bytes : Bytes) : String := String.ofList (decodePieces bytes.length bytes)

/-! ## Hexadecimal text

The lower-case digits in which addresses, hashes and dumps are written. -/

/-- The lower-case hexadecimal digit of a number below 16. -/
def hexDigit (n : Nat) : Char :=
  if n < 10 then Char.ofNat (48 + n) else Char.ofNat (87 + n)

/-- The value of a hexadecimal digit of either case. -/
def hexValue? (c : Char) : Option Nat :=
  if '0' ≤ c ∧ c ≤ '9' then some (c.toNat - 48)
  else if 'a' ≤ c ∧ c ≤ 'f' then some (c.toNat - 87)
  else if 'A' ≤ c ∧ c ≤ 'F' then some (c.toNat - 55)
  else none

/-- The two hexadecimal digits of a byte. -/
def hexOfByte (b : UInt8) : List Char := [hexDigit (b.toNat / 16), hexDigit (b.toNat % 16)]

/-- Two hexadecimal digits for each byte. -/
def hex (bytes : Bytes) : String := String.ofList (bytes.flatMap hexOfByte)

/-- The bytes that pairs of hexadecimal digits stand for; a character that is no digit counts as
zero, and one that is left over does not count. -/
def unhex : List Char → Bytes
  | high :: low :: rest =>
      UInt8.ofNat ((hexValue? high).getD 0 * 16 + (hexValue? low).getD 0) :: unhex rest
  | [_] => []
  | [] => []

/-- The hexadecimal digits of a number, without leading zeros. -/
def hexOfNat (n : Nat) : List Char := Nat.toDigits 16 n

/-! ## Numbers in text

Unsigned numbers as they stand in environment variables and addresses: one or more digits, with an
optional plus sign, and no larger than the type they are read for. -/

/-- The value of a decimal digit. -/
def digitValue? (c : Char) : Option Nat :=
  if '0' ≤ c ∧ c ≤ '9' then some (c.toNat - 48) else none

/-- The number that the digits write in a base, on top of `acc`. -/
def digitsValue? (base : Nat) (digit : Char → Option Nat) (acc : Nat) : List Char → Option Nat
  | [] => some acc
  | c :: rest => do digitsValue? base digit (acc * base + (← digit c)) rest

/-- One or more digits behind an optional plus sign. -/
def unsigned? (base : Nat) (digit : Char → Option Nat) : List Char → Option Nat
  | [] => none
  | ['+'] => none
  | '+' :: digits => digitsValue? base digit 0 digits
  | digits => digitsValue? base digit 0 digits

/-- A decimal number of at most `limit`. -/
def decimal? (limit : Nat) (text : String) : Option Nat := do
  let n ← unsigned? 10 digitValue? text.toList
  if n ≤ limit then some n else none

/-! ## Cutting text

Texts are cut at separators (`splitWhere`: `n` separators give `n + 1` parts, empty ones included)
and at the last arrow of a label (`afterLastArrow`). -/

/-- The parts between the characters that are separators. -/
def splitWhere (isSeparator : Char → Bool) : List Char → List (List Char)
  | [] => [[]]
  | c :: rest =>
      if isSeparator c then [] :: splitWhere isSeparator rest
      else match splitWhere isSeparator rest with
        | part :: parts => (c :: part) :: parts
        | [] => [[c]]

/-- What stands behind the last `->`, if there is one. -/
def behindArrow? : List Char → Option (List Char)
  | [] => none
  | c :: rest =>
      match behindArrow? rest with
      | some found => some found
      | none => if c = '-' ∧ rest.head? = some '>' then some rest.tail else none

/-- What stands behind the last `->`; the whole text when there is none. -/
def afterLastArrow (text : List Char) : List Char := (behindArrow? text).getD text

theorem splitWhere_ne_nil (p : Char → Bool) (text : List Char) : splitWhere p text ≠ [] := by
  cases text with
  | nil => simp [splitWhere]
  | cons c rest =>
    simp only [splitWhere]
    split
    · simp
    · split <;> simp

end RomCast.Text
