import RomCast.Text.Basic

set_option autoImplicit false

/-!
# Addresses

Hardware addresses and IPv4 addresses, on the wire and in text.
-/

namespace RomCast

/-! ## Hardware addresses

The 48-bit address of a network card.  In text it is six parts of two characters, separated by
colons or hyphens; each part is two hexadecimal digits, or a plus sign and one digit.  It is always
written with lower-case digits and colons. -/

/-- A 48-bit hardware address. -/
structure Mac where
  octets : Octets 6
  deriving DecidableEq, Inhabited

namespace Mac

/-- The address that every card answers to. -/
def broadcast : Mac := ⟨Octets.fill 6 0xff⟩

/-- The address of no card. -/
def zero : Mac := ⟨Octets.zero 6⟩

/-- The bytes of the address. -/
def bytes (m : Mac) : Bytes := m.octets.bytes

/-- The address at the front of a byte string. -/
def ofBytes (bytes : Bytes) : Mac := ⟨Octets.ofBytes 6 bytes⟩

/-- Whether the address is the one every card answers to. -/
def isBroadcast (m : Mac) : Bool := m == broadcast

/-- Two digits for each byte, with colons between them. -/
def render (m : Mac) : String :=
  String.ofList ((m.bytes.map Text.hexOfByte).intersperse [':']).flatten

/-- The address as it is shown in diagnostics. -/
def debug (m : Mac) : String := "MacAddr(" ++ m.render ++ ")"

/-- The byte that a part of two characters writes. -/
def part? (part : List Char) : Option UInt8 :=
  match part with
  | [_, _] => (Text.unsigned? 16 Text.hexValue? part).map UInt8.ofNat
  | _ => none

/-- The address that a text writes. -/
def parse? (text : String) : Option Mac := do
  let bytes ← (Text.splitWhere (fun c => c = ':' || c = '-') text.toList).mapM part?
  if h : bytes.length = 6 then some ⟨⟨bytes, h⟩⟩ else none

end Mac

/-! ## IPv4 addresses

Four bytes; in text four decimal numbers from 0 to 255 with dots between them, none of them with a
leading zero. -/

/-- An IPv4 address. -/
structure Ipv4Address where
  octets : Octets 4
  deriving DecidableEq, Inhabited

namespace Ipv4Address

/-- The bytes of the address. -/
def bytes (a : Ipv4Address) : Bytes := a.octets.bytes

/-- The address at the front of a byte string. -/
def ofBytes (bytes : Bytes) : Ipv4Address := ⟨Octets.ofBytes 4 bytes⟩

/-- The limited broadcast address, 255.255.255.255. -/
def broadcast : Ipv4Address := ⟨Octets.fill 4 0xff⟩

/-- The unspecified address, 0.0.0.0. -/
def unspecified : Ipv4Address := ⟨Octets.zero 4⟩

/-- Four numbers with dots between them. -/
def render (a : Ipv4Address) : String :=
  ".".intercalate (a.bytes.map fun b => toString b.toNat)

/-- The byte that one to three digits write, without a leading zero. -/
def part? (part : List Char) : Option UInt8 :=
  match part with
  | [] => none
  | '0' :: _ :: _ => none
  | _ =>
      match Text.digitsValue? 10 Text.digitValue? 0 part with
      | some n => if n ≤ 255 then some (UInt8.ofNat n) else none
      | none => none

/-- The address that a text writes. -/
def parse? (text : String) : Option Ipv4Address := do
  let bytes ← (Text.splitWhere (· = '.') text.toList).mapM part?
  if h : bytes.length = 4 then some ⟨⟨bytes, h⟩⟩ else none

end Ipv4Address

end RomCast
