import RomCast.ModuleName
import RomCast.Text.Basic

set_option autoImplicit false

/-!
# Dataspaces

The visible content of one module, and the sessions that look at it.  A session is attached under a
label that names the module, may register one capability to be signalled when new content becomes
visible, and may be detached.

Signals are not delivered here: `Dataspace.signals` lists the capabilities to be signalled, in the
order of their sessions, and whoever holds them delivers.
-/

namespace RomCast

/-- A label that names another module. -/
structure UnknownModule where
  requested : String
  served : String
  deriving DecidableEq, Repr, Inhabited

/-- The wording of a refused label. -/
def UnknownModule.message (e : UnknownModule) : String :=
  "no module " ++ Text.quoted e.requested ++ " here (serving " ++ Text.quoted e.served ++ ")"

/-- The module that a session's label names: what stands behind the last arrow, without the blanks
around it. -/
def requestedModule (label : String) : String :=
  Text.trim (String.ofList (Text.afterLastArrow label.toList))

/-- The visible content of a module and its sessions; `κ` are the capabilities. -/
structure Dataspace (κ : Type) where
  name : ModuleName
  /-- What is visible before anything has been published. -/
  default : Bytes
  foreground : Option Bytes := none
  /-- The attached sessions, in the order of their numbers, with their capabilities. -/
  sessions : List (Nat × Option κ) := []
  /-- The number of the next session. -/
  nextId : Nat := 0

namespace Dataspace

variable {κ : Type}

/-- A dataspace without sessions. -/
def new (name : ModuleName) (default : Option Bytes) : Dataspace κ :=
  { name, default := default.getD [] }

/-- What is visible. -/
def content (d : Dataspace κ) : Bytes := d.foreground.getD d.default

/-- Whether anything has been published. -/
def hasContent (d : Dataspace κ) : Bool := d.foreground.isSome

/-- Make a content visible. -/
def publish (d : Dataspace κ) (content : Bytes) : Dataspace κ :=
  { d with foreground := some content }

/-- Attach a session: its number, when the label names this module. -/
def attach (d : Dataspace κ) (label : String) : Except UnknownModule (Nat × Dataspace κ) :=
  let requested := requestedModule label
  if requested = d.name.text then
    .ok (d.nextId, { d with sessions := d.sessions ++ [(d.nextId, none)], nextId := d.nextId + 1 })
  else .error ⟨requested, d.name.text⟩

/-- Register a session's capability, in place of an earlier one. -/
def register (d : Dataspace κ) (id : Nat) (capability : κ) : Dataspace κ :=
  { d with sessions := d.sessions.map fun s => if s.1 = id then (id, some capability) else s }

/-- Detach a session. -/
def detach (d : Dataspace κ) (id : Nat) : Dataspace κ :=
  { d with sessions := d.sessions.filter fun s => s.1 ≠ id }

/-- The capabilities to signal, one for each session that has one. -/
def signals (d : Dataspace κ) : List κ := d.sessions.filterMap Prod.snd

/-- How many sessions are attached. -/
def sessionCount (d : Dataspace κ) : Nat := d.sessions.length

end Dataspace

/-- A flag that remembers that it was signalled at least once since it was last looked at. -/
structure Permit where
  stored : Bool := false
  deriving DecidableEq, Repr, Inhabited

namespace Permit

/-- Signal the flag. -/
def signal (_ : Permit) : Permit := ⟨true⟩

/-- Look at the flag, and lower it. -/
def take (p : Permit) : Bool × Permit := (p.stored, ⟨false⟩)

end Permit

end RomCast
