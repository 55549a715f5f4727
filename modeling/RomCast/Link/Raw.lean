import RomCast.Link.Transport

set_option autoImplicit false

/-!
# Links over a raw socket

A raw socket sees every frame on its interface, the host's own ones included.  What the kernel does
is not known to the link: which sends it refuses, and what each receive call meets.  Both are given
as lists of answers, so that a run over the socket is a function of them.

A send that would block leaves the frame waiting; a send that fails otherwise drops it.  A receive
call that was interrupted is repeated, and frames that the host itself sent are skipped.
-/

namespace RomCast

/-- What a receive call meets. -/
inductive Arrival where
  /-- A frame, with the kernel's mark of where it comes from. -/
  | frame (bytes : Bytes) (mark : Nat)
  /-- A failure. -/
  | fault (cause : SystemError)
  deriving DecidableEq, Inhabited

/-- The kernel's mark of a frame that the host itself sent. -/
def outgoingMark : Nat := 4

/-- A raw socket, with the answers that the kernel has ready for it. -/
structure Socket where
  /-- What the next receive calls meet. -/
  arrivals : List Arrival := []
  /-- What becomes of the next sends: why each one is refused, or `none` when it is accepted.  After
  them every send is accepted. -/
  refusals : List (Option SystemError) := []
  /-- What was accepted, the oldest first. -/
  sent : List Bytes := []
  deriving DecidableEq, Inhabited

namespace Socket

/-- Let one more receive call meet something. -/
def arrive (a : Arrival) (s : Socket) : Socket := { s with arrivals := s.arrivals ++ [a] }

/-- Refuse `n` more sends, after the ones that are already to be refused. -/
def refuse (cause : SystemError) (n : Nat) (s : Socket) : Socket :=
  { s with refusals := s.refusals ++ List.replicate n (some cause) }

/-- Send one frame. -/
def send (frame : Bytes) : Action SystemError Socket Unit := fun s =>
  match s.refusals with
  | [] => .ok () { s with sent := s.sent ++ [frame] }
  | none :: rest => .ok () { s with sent := s.sent ++ [frame], refusals := rest }
  | some cause :: rest => .error cause { s with refusals := rest }

/-- Receive into a buffer: the length of the frame, the buffer, and what has not arrived yet. -/
def receiveFrom (buffer : Bytes) :
    List Arrival → Except LinkError (Option Nat) × Bytes × List Arrival
  | [] => (.ok none, buffer, [])
  | .frame bytes mark :: rest =>
      let filled := buffer.overwrite 0 bytes
      if mark = outgoingMark then receiveFrom filled rest
      else (.ok (some (min bytes.length buffer.length)), filled, rest)
  | .fault cause :: rest =>
      if cause = .wouldBlock then (.ok none, buffer, rest)
      else if cause = .interrupted then receiveFrom buffer rest
      else (.error (.failed cause), buffer, rest)

end Socket

/-- A link over a raw socket. -/
structure RawLink where
  mac : Mac
  /-- The index of the interface that the socket is bound to, as the signed number that a socket's
  address holds. -/
  interface : Int32
  pool : TransmitPool
  socket : Socket := {}
  deriving DecidableEq, Inhabited

namespace RawLink

/-- Change the socket. -/
def mapSocket (f : Socket → Socket) (link : RawLink) : RawLink :=
  { link with socket := f link.socket }

/-- Send waiting frames, at most `n` of them, until one would block. -/
def sendWaiting : Nat → RawLink → RawLink
  | 0, link => link
  | n + 1, link =>
      match link.pool.front? with
      | none => link
      | some frame =>
          match Socket.send frame link.socket with
          | .ok _ socket => sendWaiting n { link with socket, pool := link.pool.completeFront }
          | .error cause socket =>
              if cause = .wouldBlock then { link with socket }
              else sendWaiting n { link with socket, pool := link.pool.completeFront }

instance : Transport RawLink where
  mac := RawLink.mac
  pool := RawLink.pool
  setPool p link := { link with pool := p }
  pending link := link.socket.arrivals.length
  process := modify fun link => link.sendWaiting link.pool.submitted.length
  receive := fun (link, buffer) =>
    let (answer, filled, arrivals) := Socket.receiveFrom buffer link.socket.arrivals
    let link := { link with socket := { link.socket with arrivals } }
    match answer with
    | .ok length => .ok length (link, filled)
    | .error e => .error e (link, filled)

end RawLink

end RomCast
