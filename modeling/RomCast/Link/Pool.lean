import RomCast.Action
import RomCast.Bytes
import RomCast.SystemError

set_option autoImplicit false

/-!
# Transmit buffers

A link owns a fixed number of transmit buffers.  A buffer is free, held by its writer, waiting to be
sent, or sent and waiting to be collected; a descriptor stands for one buffer that is not free.
Buffers are not cleared when they come back.
-/

namespace RomCast

/-- The size of every transmit buffer, and of the receive buffer. -/
def bufferSize : Nat := 1600

/-- Why a link refuses an operation. -/
inductive LinkError where
  | exhausted
  | tooLarge (length : Nat)
  | failed (cause : SystemError)
  deriving DecidableEq, Repr, Inhabited

/-- The wording of a link's refusal. -/
def LinkError.message : LinkError → String
  | exhausted => "transmit buffers exhausted"
  | tooLarge length =>
      "packet of " ++ toString length ++ " bytes exceeds buffer size " ++ toString bufferSize
  | failed cause => "link I/O failed: " ++ cause.message

/-- One buffer that is in use, and how many of its bytes count. -/
structure Descriptor where
  slot : Nat
  length : Nat
  deriving DecidableEq, Repr, Inhabited

/-- Let fewer bytes count. -/
def Descriptor.truncate (d : Descriptor) (length : Nat) : Descriptor :=
  { d with length := min d.length length }

/-- The transmit buffers of a link. -/
structure TransmitPool where
  buffers : List Bytes
  /-- The free slots; the one that was released last is handed out first. -/
  free : List Nat
  /-- What waits to be sent, the oldest first. -/
  submitted : List Descriptor
  /-- What was sent and not yet collected, the oldest first. -/
  acked : List Descriptor
  deriving DecidableEq, Inhabited

namespace TransmitPool

/-- A pool of `count` free buffers of zeros. -/
def ofCount (count : Nat) : TransmitPool where
  buffers := List.replicate count (Bytes.zeros bufferSize)
  free := List.range count
  submitted := []
  acked := []

/-- Take a free buffer for `length` bytes. -/
def alloc (length : Nat) : Action LinkError TransmitPool Descriptor := fun p =>
  if bufferSize < length then .error (.tooLarge length) p
  else match p.free with
    | [] => .error .exhausted p
    | slot :: rest => .ok ⟨slot, length⟩ { p with free := rest }

/-- The whole buffer in a slot. -/
def buffer (p : TransmitPool) (slot : Nat) : Bytes := p.buffers[slot]?.getD []

/-- The bytes that a descriptor stands for. -/
def content (p : TransmitPool) (d : Descriptor) : Bytes := (p.buffer d.slot).take d.length

/-- Change the bytes that a descriptor stands for. -/
def store (p : TransmitPool) (d : Descriptor) (bytes : Bytes) : TransmitPool :=
  { p with buffers :=
      p.buffers.set d.slot ((p.buffer d.slot).overwrite 0 (bytes.take d.length)) }

/-- Queue a buffer to be sent. -/
def submit (p : TransmitPool) (d : Descriptor) : TransmitPool :=
  { p with submitted := p.submitted ++ [d] }

/-- The oldest frame that waits to be sent. -/
def front? (p : TransmitPool) : Option Bytes := p.submitted.head?.map p.content

/-- The oldest waiting frame has been sent. -/
def completeFront (p : TransmitPool) : TransmitPool :=
  match p.submitted with
  | [] => p
  | d :: rest => { p with submitted := rest, acked := p.acked ++ [d] }

/-- Whether a sent buffer waits to be collected. -/
def ackAvailable (p : TransmitPool) : Bool := !p.acked.isEmpty

/-- Collect the oldest sent buffer. -/
def takeAcked (p : TransmitPool) : Option Descriptor × TransmitPool :=
  match p.acked with
  | [] => (none, p)
  | d :: rest => (some d, { p with acked := rest })

/-- Give a buffer back. -/
def release (p : TransmitPool) (d : Descriptor) : TransmitPool :=
  { p with free := d.slot :: p.free }

/-- How many buffers are not free. -/
def inFlight (p : TransmitPool) : Nat := p.buffers.length - p.free.length

/-- The frames that wait to be sent, the oldest first. -/
def waiting (p : TransmitPool) : List Bytes := p.submitted.map p.content

end TransmitPool

end RomCast
