import RomCast.Proofs.Client.Request
import RomCast.Proofs.Exchange.Setup

set_option autoImplicit false

/-!
# A server and a client with a channel between them

The channel carries the server's frames to the client as they are, but in any order, any number of
times, or never.  Beside the two stations a broadcast keeps a record: which frames were sent and
which were delivered, which contents the server has streamed, and which commits the client has made
while it handled which frame.
-/

namespace RomCast.Exchange

/-- A content that was streamed: what the server was serving under which name when it was asked for
it, and the frames that were queued for it. -/
structure Stream where
  module : ModuleName
  content : Bytes
  frames : List Bytes

/-- A commit, and the frame that was being handled. -/
structure Landing where
  frame : Bytes
  commit : Client.Commit

/-- A server, a client, and what has passed between them. -/
structure Broadcast (κ : Type) extends Exchange MemoryLink Publication κ where
  /-- The frames that the server has sent, in order. -/
  sent : List Bytes := []
  /-- The frames that have arrived at the client, in order. -/
  delivered : List Bytes := []
  streams : List Stream := []
  landings : List Landing := []

/-- Something that happens in a broadcast. -/
inductive Move (κ : Type) where
  /-- The server reads the next frame. -/
  | serverTurn (now : Nat)
  | serverChore (chore : Endpoint.Chore)
  | announce (now : Nat) (name : ModuleName)
  | publish (name : ModuleName) (content : Bytes)
  | clear (name : ModuleName)
  /-- A frame comes in at the server, from the client or from anyone else. -/
  | arrive (frame : Bytes)
  /-- The channel takes what the server has put onto the wire. -/
  | collect
  /-- A copy of the frame that was sent with this number comes in at the client. -/
  | deliver (number : Nat)
  /-- The client reads the next frame. -/
  | clientTurn (now : Nat)
  | clientChore (chore : Endpoint.Chore)
  | request (now : Nat) (name : ModuleName)
  /-- What the client has put onto the wire is taken off. -/
  | clientCollect
  | takeJournal
  | attach (name : ModuleName) (label : String)
  | sigh (name : ModuleName) (session : Nat) (capability : κ)
  | detach (name : ModuleName) (session : Nat)

/-- The stream that a packet starts, if it starts one. -/
def streamOf (contents : Registry Publication) (frames : List Bytes) (message : Message) :
    Option Stream :=
  match message.body, contents.find? message.module with
  | .update, some p =>
      if p.content.length < UInt32.size then some ⟨message.module, p.content, frames⟩ else none
  | _, _ => none

namespace Broadcast

variable {κ : Type}

/-- A broadcast at the start. -/
def start (server client : Setup) (contents : List (ModuleName × Bool × Option Bytes))
    (limit : Nat) (modules : List (ModuleName × Option Bytes)) : Broadcast κ where
  server := serving server.endpoint contents
  client := Client.starting client.endpoint limit modules

/-- Change a publication. -/
def changing (b : Broadcast κ) (name : ModuleName) (f : Publication → Publication) :
    Broadcast κ :=
  { b with server := { b.server with role := b.server.role.modify name f } }

/-- One move, with what there is to record about it. -/
def perform (b : Broadcast κ) : Move κ → Broadcast κ
  | .serverTurn now =>
      let after := (Station.turn (Server.handler now)).state b.server
      let frames := after.endpoint.link.pipeline.drop b.server.endpoint.link.pipeline.length
      let stream := (Station.packet? b.server).bind (streamOf b.server.role frames)
      { b with server := after, streams := b.streams ++ stream.toList }
  | .serverChore chore =>
      { b with server := { b.server with endpoint := chore.apply b.server.endpoint } }
  | .announce now name =>
      let announced : Action LinkError (Server MemoryLink Publication) Unit :=
        Server.sendUpdate now name
      { b with server := announced.state b.server }
  | .publish name content => b.changing name fun p => (p.update content).2
  | .clear name => b.changing name fun p => p.clear.2
  | .arrive frame => { b with server := give [frame] b.server }
  | .collect =>
      let (frames, server) := takeSent b.server
      { b with server, sent := b.sent ++ frames }
  | .deliver number =>
      let frames := b.sent[number]?.toList
      { b with client := give frames b.client, delivered := b.delivered ++ frames }
  | .clientTurn now =>
      let after := (Station.turn (Client.handler now)).state b.client
      let frame := b.client.endpoint.link.inbound.head?.getD []
      let commit := (Station.packet? b.client).bind (Client.commitOf b.client.role after.role)
      { b with client := after, landings := b.landings ++ commit.toList.map (⟨frame, ·⟩) }
  | .clientChore chore =>
      { b with client := { b.client with endpoint := chore.apply b.client.endpoint } }
  | .request now name => { b with client := (Client.requestUpdate now name).state b.client }
  | .clientCollect => { b with client := (takeSent b.client).2 }
  | .takeJournal => { b with client := b.client.takeJournal.2 }
  | .attach name label => { b with client := b.client.mapSpace name (·.attached label) }
  | .sigh name session capability =>
      { b with client := b.client.mapSpace name (·.register session capability) }
  | .detach name session => { b with client := b.client.mapSpace name (·.detach session) }

/-- A number of moves, one after the other. -/
def run (b : Broadcast κ) (moves : List (Move κ)) : Broadcast κ := moves.foldl perform b

/-- The contents that were streamed or committed. -/
def involved (b : Broadcast κ) : List Bytes :=
  b.streams.map Stream.content ++ b.landings.map fun l => l.commit.content

end Broadcast

/-! ## Streams -/

namespace Stream

/-- The packet of the fragment with a number. -/
def packet (s : Stream) (i : Nat) : Bytes :=
  dataPacket s.module (ContentHash.of s.content) (UInt32.ofNat s.content.length)
    (UInt32.ofNat (i * maxPayload)) (Server.chunk s.content i)

/-- The frame is the one that was queued for the stream's last fragment. -/
def EndsWith (s : Stream) (frame : Bytes) : Prop :=
  frame ∈ s.frames ∧ ∃ a : Endpoint.Addressing,
    frame = a.frame (s.packet (Server.fragmentCount s.content - 1))

theorem decode_packet (s : Stream) (i : Nat) :
    Message.decode (s.packet i) =
      .ok ⟨s.module, ContentHash.of s.content, .data (Server.fragment s.content i)⟩ :=
  Message.decode_data _ _ _ _ (Server.length_chunk_le s.content i)

end Stream

end RomCast.Exchange
