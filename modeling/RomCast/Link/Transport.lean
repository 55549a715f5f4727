import RomCast.Address
import RomCast.Link.Pool

set_option autoImplicit false

/-!
# Links

What an endpoint needs of the link below it: transmit buffers to allocate, fill, submit, collect and
release, a way to move submitted frames onto the wire, and a way to receive.  Links differ in what
happens on the wire; all of them keep their buffers in a `TransmitPool`.
-/

namespace RomCast

/-- A link below an endpoint. -/
class Transport (L : Type) where
  /-- The link's own hardware address. -/
  mac : L → Mac
  /-- The link's transmit buffers. -/
  pool : L → TransmitPool
  /-- The link with other transmit buffers. -/
  setPool : TransmitPool → L → L
  /-- A bound on how many more frames can be received before something new arrives. -/
  pending : L → Nat
  /-- Whether a frame can be submitted before waiting ones have been sent. -/
  ready : L → Bool := fun _ => true
  /-- Take a free buffer. -/
  alloc (length : Nat) : Action LinkError L Descriptor :=
    (TransmitPool.alloc length).on pool setPool
  /-- Queue a buffer to be sent. -/
  submit (d : Descriptor) : Action LinkError L Unit :=
    modify fun link => setPool ((pool link).submit d) link
  /-- Collect the oldest sent buffer. -/
  takeAcked (link : L) : Option Descriptor × L :=
    let (d, p) := (pool link).takeAcked
    (d, setPool p link)
  /-- Move submitted frames onto the wire. -/
  process : Action LinkError L Unit
  /-- Copy the next inbound frame into a buffer; the answer is its length, cut to the buffer's. -/
  receive : Action LinkError (L × Bytes) (Option Nat)

namespace Transport

variable {L : Type} [Transport L]

/-- The bytes that a descriptor stands for. -/
def content (link : L) (d : Descriptor) : Bytes := (pool link).content d

/-- Change the bytes that a descriptor stands for. -/
def store (link : L) (d : Descriptor) (bytes : Bytes) : L :=
  setPool ((pool link).store d bytes) link

/-- Give a buffer back. -/
def release (link : L) (d : Descriptor) : L := setPool ((pool link).release d) link

/-- Whether a sent buffer waits to be collected. -/
def ackAvailable (link : L) : Bool := (pool link).ackAvailable

/-- How many buffers are not free. -/
def inFlight (link : L) : Nat := (pool link).inFlight

/-- Collect and release sent buffers, at most `n` of them, until none is handed out. -/
def drainAcksFrom : Nat → L → L
  | 0, link => link
  | n + 1, link =>
      if ackAvailable link then
        match takeAcked link with
        | (some d, link) => drainAcksFrom n (release link d)
        | (none, link) => link
      else link

/-- Collect and release every sent buffer. -/
def drainAcks (link : L) : L := drainAcksFrom (pool link).acked.length link

end Transport

end RomCast
