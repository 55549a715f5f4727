import RomCast.Endpoint.Receive
import RomCast.Message

set_option autoImplicit false

/-!
# Stations

A station is an endpoint together with what it is there for: a server's publications, a client's
replicas.  Polling reads every frame that waits on the link, hands each decoded packet to the
station's role, and then sends what was queued.  Frames and packets that cannot be read are dropped,
and so is a packet whose handling fails.
-/

namespace RomCast

/-- An endpoint, its receive buffer, and the role it plays. -/
structure Station (L ρ : Type) where
  endpoint : Endpoint L
  role : ρ
  buffer : Bytes := Bytes.zeros bufferSize
  deriving Inhabited

namespace Station

variable {L ρ ε α : Type} [Transport L]

/-- A step of the endpoint. -/
def onEndpoint (x : Action ε (Endpoint L) α) : Action ε (Station L ρ) α :=
  x.on Station.endpoint fun endpoint s => { s with endpoint }

/-- How a role handles a packet: a step on the endpoint and the role's own state. -/
abbrev Handler (L ρ : Type) : Type := Message → Action FrameError (Endpoint L × ρ) Unit

/-- Receive the next frame into the station's buffer; the answer is its length. -/
def receive : Action LinkError (Station L ρ) (Option Nat) :=
  (Transport.receive (L := L)).on (fun s => (s.endpoint.link, s.buffer))
    fun (link, buffer) s => { s with endpoint := { s.endpoint with link }, buffer }

/-- Deal with the frame of `length` bytes in the buffer: the packet it carries, if it can be
read. -/
def readPacket (length : Nat) : Action ε (Station L ρ) (Option Message) := fun s =>
  let frame := s.buffer.take length
  let handled := Endpoint.handle (s.endpoint, frame)
  let after (e : Endpoint L) (frame : Bytes) : Station L ρ :=
    { s with endpoint := e, buffer := s.buffer.overwrite 0 frame }
  match handled with
  | .ok (some (start, stop)) (e, frame) =>
      .ok (Message.decode (frame.slice start stop)).toOption (after e frame)
  | .ok none (e, frame) => .ok none (after e frame)
  | .error _ (e, frame) => .ok none (after e frame)

/-- Hand a packet to the role. -/
def dispatch (handler : Handler L ρ) (message : Message) : Action ε (Station L ρ) Unit := do
  let handled := (handler message).attempt.on (fun s : Station L ρ => (s.endpoint, s.role))
    fun (endpoint, role) s => { s with endpoint, role }
  let _ ← handled

/-- Read the next frame, if one waits, and the packet it carries, if that can be read. -/
def read : Action LinkError (Station L ρ) (Option (Option Message)) := do
  match ← receive with
  | none => return none
  | some length => return some (← readPacket length)

/-- One turn of the receive loop: read the next frame and hand its packet to the role; false when no
frame waits. -/
def turn (handler : Handler L ρ) : Action LinkError (Station L ρ) Bool := do
  match ← read with
  | none => return false
  | some none => return true
  | some (some message) =>
      dispatch handler message
      return true

/-- Read at most `n` frames, until none waits; the answer is how many were read. -/
def drainFrom (handler : Handler L ρ) : Nat → Action LinkError (Station L ρ) Nat
  | 0 => return 0
  | n + 1 => do
      if ← turn handler then return (← drainFrom handler n) + 1 else return 0

/-- Read every frame that waits, and send what was queued; the answer is how many were read. -/
def poll (handler : Handler L ρ) : Action LinkError (Station L ρ) Nat := do
  let frames ← drainFrom handler (Transport.pending (← get).endpoint.link + 1)
  onEndpoint Endpoint.flush
  return frames

end Station

end RomCast
