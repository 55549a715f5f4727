import RomCast.Action
import RomCast.Header

set_option autoImplicit false

/-!
# Guarded access

A reader walks over a byte string from front to back, and a writer fills a buffer in the same way.
An access that would cross the end does not happen.  What is reported instead is where the access
would have started, how many bytes it asked for, and how many there are.
-/

namespace RomCast

/-- An access that would have crossed the end of a buffer. -/
structure GuardError where
  offset : Nat
  needed : Nat
  available : Nat
  deriving DecidableEq, Repr, Inhabited

/-- The wording of a refused access. -/
def GuardError.message (e : GuardError) : String :=
  "frame guard exceeded: need " ++ toString e.needed ++ " bytes at offset " ++
    toString e.offset ++ ", " ++ toString e.available ++ " available"

/-! ## Reading a frame

A reader walks over a byte string from front to back.  An operation of `n` bytes succeeds exactly
when `n` bytes remain, and then moves by `n`; a refused operation does not move. -/

/-- A byte string and how much of it has been read. -/
structure Reader where
  bytes : Bytes
  position : Nat := 0
  deriving DecidableEq, Inhabited

namespace Reader

/-- How many bytes have not been read. -/
def remaining (r : Reader) : Nat := r.bytes.length - r.position

/-- The bytes that have not been read. -/
def rest (r : Reader) : Bytes := r.bytes.drop r.position

/-- The report of a refused operation of `n` bytes. -/
def refusal (r : Reader) (n : Nat) : GuardError := ⟨r.position, n, r.remaining⟩

/-- Read the next `n` bytes. -/
def take (n : Nat) : Action GuardError Reader Bytes := fun r =>
  if n ≤ r.remaining then .ok (r.rest.take n) { r with position := r.position + n }
  else .error (r.refusal n) r

/-- Move over the next `n` bytes. -/
def skip (n : Nat) : Action GuardError Reader Unit := do
  let _ ← take n

/-- Read a header. -/
def read (α : Type) [Header α] : Action GuardError Reader α := do
  return Header.decode (← take (Header.size α))

/-- The header at the front of a byte string. -/
def readFront (α : Type) [Header α] (bytes : Bytes) : Except GuardError α :=
  (read α).result { bytes }

end Reader

/-! ## Writing a frame

A writer fills a buffer from front to back.  Bytes can be claimed first and written later, and what
has been claimed can be changed at any time; the buffer never changes its length. -/

/-- A buffer and how much of it has been claimed. -/
structure Writer where
  buffer : Bytes
  position : Nat := 0
  deriving DecidableEq, Inhabited

namespace Writer

/-- How many bytes have not been claimed. -/
def remaining (w : Writer) : Nat := w.buffer.length - w.position

/-- The report of a refused operation of `n` bytes. -/
def refusal (w : Writer) (n : Nat) : GuardError := ⟨w.position, n, w.remaining⟩

/-- The bytes that have not been claimed. -/
def tail (w : Writer) : Bytes := w.buffer.drop w.position

/-- Claim `n` bytes; the answer is where they start. -/
def reserve (n : Nat) : Action GuardError Writer Nat := fun w =>
  if n ≤ w.remaining then .ok w.position { w with position := w.position + n }
  else .error (w.refusal n) w

/-- Claim `n` bytes that hold what they should already. -/
def advance (n : Nat) : Action GuardError Writer Unit := do
  let _ ← reserve n

/-- Change bytes anywhere in the buffer. -/
def patch (start : Nat) (bytes : Bytes) : Action GuardError Writer Unit :=
  modify fun w => { w with buffer := w.buffer.overwrite start bytes }

/-- Change the bytes that have not been claimed, without claiming them. -/
def fillTail (bytes : Bytes) : Action GuardError Writer Unit :=
  modify fun w => { w with buffer := w.buffer.overwrite w.position bytes }

/-- Claim the next bytes and write them. -/
def putBytes (bytes : Bytes) : Action GuardError Writer Unit := do
  let start ← reserve bytes.length
  patch start bytes

/-- Claim the next bytes and write a header into them. -/
def put {α : Type} [Header α] (header : α) : Action GuardError Writer Unit :=
  putBytes (Header.encode header)

end Writer

/-- Change a header at `offset` of a buffer in place, when all of it lies within the buffer. -/
def Header.view {α : Type} [Header α] (offset : Nat) (f : α → α) :
    Action GuardError Bytes (α × α) := fun buffer =>
  let available := buffer.length - offset
  if Header.size α ≤ available then
    let before : α := Header.decode (buffer.drop offset)
    .ok (before, f before) (Header.modifyAt buffer offset f)
  else .error ⟨offset, Header.size α, available⟩ buffer

end RomCast
