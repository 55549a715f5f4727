import RomCast.Link.Transport

set_option autoImplicit false

/-!
# Links in memory

A link whose wire is a pair of queues: what it has sent and nobody has taken yet, and what has been
put before it to be received.  How many frames one call may send can be limited; at a limit of zero
the link stands still.
-/

namespace RomCast

/-- A link whose two directions are queues of frames. -/
structure MemoryLink where
  mac : Mac
  pool : TransmitPool
  /-- What was sent, the oldest first. -/
  outbound : List Bytes := []
  /-- What can be received, the oldest first. -/
  inbound : List Bytes := []
  /-- How many frames one call sends at most; `none` for all of them. -/
  batch : Option Nat := none
  deriving DecidableEq, Inhabited

namespace MemoryLink

/-- A link with `queue` transmit buffers. -/
def ofQueue (mac : Mac) (queue : Nat) : MemoryLink := { mac, pool := TransmitPool.ofCount queue }

/-- Send the oldest waiting frame. -/
def sendFront (link : MemoryLink) : MemoryLink :=
  match link.pool.front? with
  | none => link
  | some frame =>
      { link with outbound := link.outbound ++ [frame], pool := link.pool.completeFront }

/-- Send the `n` oldest waiting frames. -/
def sendFronts : Nat → MemoryLink → MemoryLink
  | 0, link => link
  | n + 1, link => sendFronts n link.sendFront

/-- How many frames the next call sends. -/
def quota (link : MemoryLink) : Nat :=
  match link.batch with
  | none => link.pool.submitted.length
  | some n => min n link.pool.submitted.length

/-- Copy the oldest inbound frame into a buffer, cut to the buffer's length. -/
def receiveInto (link : MemoryLink) (buffer : Bytes) : Option Nat × MemoryLink × Bytes :=
  match link.inbound with
  | [] => (none, link, buffer)
  | frame :: rest =>
      (some (min frame.length buffer.length), { link with inbound := rest },
        buffer.overwrite 0 frame)

instance : Transport MemoryLink where
  mac := MemoryLink.mac
  pool := MemoryLink.pool
  setPool p link := { link with pool := p }
  pending link := link.inbound.length
  process := modify fun link => link.sendFronts link.quota
  receive := fun (link, buffer) =>
    let (length, state) := link.receiveInto buffer
    .ok length state

/-- Put a frame before the link. -/
def deliver (link : MemoryLink) (frame : Bytes) : MemoryLink :=
  { link with inbound := link.inbound ++ [frame] }

/-- Take everything that was sent. -/
def takeOutbound (link : MemoryLink) : List Bytes × MemoryLink :=
  (link.outbound, { link with outbound := [] })

/-- Two links back to back: what one has sent lies before the other. -/
def connect (a b : MemoryLink) : MemoryLink × MemoryLink :=
  ({ a with outbound := [], inbound := a.inbound ++ b.outbound },
   { b with outbound := [], inbound := b.inbound ++ a.outbound })

end MemoryLink

end RomCast
