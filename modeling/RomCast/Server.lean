import RomCast.Publication
import RomCast.Registry
import RomCast.Station

set_option autoImplicit false

/-!
# Servers

A server announces that a module's content changed, and streams the content to whoever asks.  A
content is streamed as fragments of at most `maxPayload` bytes, in the order of their offsets.
Packets other than requests are other servers' and are ignored.
-/

namespace RomCast

/-- A station that serves contents of type `σ`. -/
abbrev Server (L σ : Type) : Type := Station L (Registry σ)

namespace Server

variable {L σ ε : Type} [Transport L] [ContentSource σ]

/-- A server without contents. -/
def new (endpoint : Endpoint L) : Server L σ := { endpoint, role := {} }

/-- Serve a content, in place of an earlier one of the same name. -/
def register (s : Server L σ) (name : ModuleName) (source : σ) : Server L σ :=
  { s with role := s.role.insert name source }

/-- The names of what is served, in ascending order. -/
def modules (s : Server L σ) : List ModuleName := s.role.sortedNames

/-- The bytes in front of a fragment's payload. -/
def dataOverhead : Nat := Header.size PacketHeader + Header.size FragmentHeader

/-- Stream a content of `size` bytes from `offset` on, in at most `n` fragments. -/
def streamFrom (now : Nat) (name : ModuleName) (source : σ) (size : Nat) (hash : ContentHash) :
    Nat → Nat → Action FrameError (Endpoint L) Unit
  | 0, _ => return ()
  | n + 1, offset => do
      if offset < size then
        let chunk := min maxPayload (size - offset)
        let fill : Fill := fun place =>
          let bytes := ContentSource.read source place.length offset
          (bytes, bytes.length)
        let _ ← Endpoint.transmit now (dataOverhead + chunk) do
          let _ ← encodeData name hash (UInt32.ofNat size) (UInt32.ofNat offset) chunk fill
        streamFrom now name source size hash n (offset + chunk)

/-- Stream a content.  One that is too long for the wire format is not streamed at all. -/
def stream (now : Nat) (name : ModuleName) (source : σ) : Action FrameError (Endpoint L) Unit := do
  let size := ContentSource.size source
  if size < UInt32.size then
    streamFrom now name source size (ContentSource.hash source)
      ((size + maxPayload - 1) / maxPayload) 0
    Endpoint.flush.mapError FrameError.link

/-- Handle a packet: stream the content that a request names. -/
def handler (now : Nat) : Station.Handler L (Registry σ) := fun message => do
  match message.body with
  | .update =>
      match (← get).2.find? message.module with
      | some source => (stream now message.module source).onFirst
      | none => return ()
  | .signal => return ()
  | .data _ => return ()

/-- Read every frame that waits; the answer is how many were read. -/
def poll (now : Nat) : Action LinkError (Server L σ) Nat := Station.poll (handler now)

/-- Send a signal for a content. -/
def announce (now : Nat) (name : ModuleName) (hash : ContentHash) :
    Action FrameError (Endpoint L) Unit := do
  let _ ← Endpoint.transmit now (Header.size PacketHeader) (encodeControl .signal name hash)
  Endpoint.flush.mapError FrameError.link

/-- Announce a module's content; empty content is not announced. -/
def sendUpdate (now : Nat) (name : ModuleName) : Action ε (Server L σ) Unit := do
  if let some source := (← get).role.find? name then
    if ContentSource.size source ≠ 0 then
      let _ ← Station.onEndpoint (announce now name (ContentSource.hash source)).attempt

/-- Announce every content. -/
def sendUpdates (now : Nat) : Action ε (Server L σ) Unit := do
  (← get).role.names.forM (sendUpdate now)

end Server

end RomCast
