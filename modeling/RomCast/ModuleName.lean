import RomCast.Header
import RomCast.Text.Basic
import RomCast.Text.CharClass

set_option autoImplicit false

/-!
# Module names

A module's name is a text of 1 to 63 bytes without the character NUL.  On the wire it stands in a
field of 64 bytes, filled up with zero bytes, so that at least one of them ends the name.
-/

namespace RomCast

/-- How many bytes a name field has. -/
def nameFieldLength : Nat := 64

/-- What a name must be: not empty, short enough for its field, and without NUL. -/
def ModuleName.Valid (text : String) : Prop :=
  text ≠ "" ∧ text.utf8ByteSize < nameFieldLength ∧ '\x00' ∉ text.toList

instance (text : String) : Decidable (ModuleName.Valid text) :=
  inferInstanceAs (Decidable (_ ∧ _ ∧ _))

/-- The name of a module. -/
structure ModuleName where
  text : String
  valid : ModuleName.Valid text
  deriving DecidableEq

namespace ModuleName

/-- A text that cannot be a module's name. -/
structure Invalid where
  text : String
  deriving DecidableEq, Repr, Inhabited

/-- The wording of a refused name. -/
def Invalid.message (e : Invalid) : String := "invalid module name: " ++ Text.quoted e.text

/-- A text as a module's name. -/
def ofText (text : String) : Except Invalid ModuleName :=
  if h : Valid text then .ok ⟨text, h⟩ else .error ⟨text⟩

/-- The name in a field: the text before the first zero byte, of which there must be one. -/
def ofField (field : Octets 64) : Except Invalid ModuleName :=
  let name := field.bytes.untilNul
  if name.length = nameFieldLength then .error ⟨Text.decodeLossy field.bytes⟩
  else match Text.decode? name with
    | some text => ofText text
    | none => .error ⟨Text.decodeLossy name⟩

/-- The field that holds a name. -/
def toField (name : ModuleName) : Octets 64 := Octets.ofBytes 64 (Text.utf8 name.text)

/-- A name as it is shown in diagnostics. -/
def debug (name : ModuleName) : String := Text.quoted name.text

/-- Names are ordered as their texts are, character by character. -/
instance : LE ModuleName := ⟨fun a b => a.text ≤ b.text⟩

instance (a b : ModuleName) : Decidable (a ≤ b) := inferInstanceAs (Decidable (a.text ≤ b.text))

end ModuleName

end RomCast
