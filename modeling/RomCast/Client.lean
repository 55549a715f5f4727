import RomCast.Registry
import RomCast.Replica
import RomCast.Station

set_option autoImplicit false

/-!
# Clients

A client asks for the content behind every signal for one of its modules, and puts the fragments
that come back together.  What happens to its replicas is written to a journal, so that whoever runs
the client can deliver the signals that commits give rise to.
-/

namespace RomCast

/-- What a client keeps: its replicas, how large a content it takes, and what has happened since
its journal was last taken. -/
structure Subscriptions (κ : Type) where
  replicas : Registry (Replica κ) := {}
  /-- Contents of more bytes are ignored. -/
  limit : Nat
  journal : List (ModuleName × Replica.Event κ) := []

/-- A station that replicates modules. -/
abbrev Client (L κ : Type) : Type := Station L (Subscriptions κ)

namespace Client

variable {L κ ε : Type} [Transport L]

/-- The largest content that a client takes unless configured otherwise: 16 MiB. -/
def defaultLimit : Nat := 16 * 1024 * 1024

/-- A client without modules. -/
def new (endpoint : Endpoint L) (limit : Nat) : Client L κ := { endpoint, role := { limit } }

/-- Replicate a module, in place of an earlier replica of the same name. -/
def register (c : Client L κ) (replica : Replica κ) : Client L κ :=
  { c with role :=
      { c.role with replicas := c.role.replicas.insert replica.space.name replica } }

/-- The replica of a module. -/
def replica? (c : Client L κ) (name : ModuleName) : Option (Replica κ) := c.role.replicas.find? name

/-- The names of what is replicated, in ascending order. -/
def modules (c : Client L κ) : List ModuleName := c.role.replicas.sortedNames

/-- Ask for a module's content. -/
def request (now : Nat) (name : ModuleName) (hash : ContentHash) :
    Action FrameError (Endpoint L) Unit := do
  let _ ← Endpoint.transmit now (Header.size PacketHeader) (encodeControl .update name hash)
  Endpoint.flush.mapError FrameError.link

/-- Take a fragment for a module, and write down what came of it. -/
def acceptFragment (name : ModuleName) (hash : ContentHash) (f : Fragment)
    (s : Subscriptions κ) : Subscriptions κ :=
  match s.replicas.find? name with
  | none => s
  | some replica =>
      let (replica, events) := replica.accept hash f s.limit
      { s with
        replicas := s.replicas.insert name replica
        journal := s.journal ++ events.map (name, ·) }

/-- Handle a packet.  Packets about other modules are ignored, and so are requests, which are other
clients'. -/
def handler (now : Nat) : Station.Handler L (Subscriptions κ) := fun message => do
  if (← get).2.replicas.contains message.module then
    match message.body with
    | .signal => (request now message.module message.contentHash).onFirst
    | .data f => Action.onSecond (modify (acceptFragment message.module message.contentHash f))
    | .update => return ()

/-- Read every frame that waits; the answer is how many were read. -/
def poll (now : Nat) : Action LinkError (Client L κ) Nat := Station.poll (handler now)

/-- Ask for a module's content without waiting for a signal. -/
def requestUpdate (now : Nat) (name : ModuleName) : Action FrameError (Client L κ) Unit := do
  if (← get).role.replicas.contains name then
    Station.onEndpoint (request now name ContentHash.zero)

/-- What has happened since the journal was last taken. -/
def takeJournal (c : Client L κ) : List (ModuleName × Replica.Event κ) × Client L κ :=
  (c.role.journal, { c with role := { c.role with journal := [] } })

end Client

end RomCast
