import RomCast.Client
import RomCast.Link.Wire
import RomCast.Server

set_option autoImplicit false

/-!
# Exchanges

A server and a client at the two ends of a wire.  In every round the client is given what the server
has sent and reads it, and then the server is given what the client has sent; frames pass through a
channel for each direction.  An exchange comes to rest when neither has sent anything.
-/

namespace RomCast

/-- Which way a frame goes. -/
inductive Direction where
  | toClient
  | toServer
  deriving DecidableEq, Repr, Inhabited

/-- A server and a client. -/
structure Exchange (L σ κ : Type) where
  server : Server L σ
  client : Client L κ

namespace Exchange

/-- What has passed between the two so far. -/
structure Report where
  /-- The frames as they were sent, in order. -/
  carried : List (Direction × Bytes) := []
  /-- The failures of those who read. -/
  errors : List (Direction × LinkError) := []
  rounds : Nat := 0
  deriving Inhabited

/-- How many frames have gone one way. -/
def Report.count (r : Report) (d : Direction) : Nat := r.carried.countP fun entry => entry.1 = d

variable {L σ κ ρ ε α : Type} [Wired L] [ContentSource σ]

/-- A step of the server. -/
def onServer (x : Action ε (Server L σ) α) : Action ε (Exchange L σ κ) α :=
  x.on Exchange.server fun server x => { x with server }

/-- A step of the client. -/
def onClient (x : Action ε (Client L κ) α) : Action ε (Exchange L σ κ) α :=
  x.on Exchange.client fun client x => { x with client }

/-- Take what a station has sent. -/
def takeSent (s : Station L ρ) : List Bytes × Station L ρ :=
  let (frames, link) := Wired.takeOutbound s.endpoint.link
  (frames, { s with endpoint := { s.endpoint with link } })

/-- Put frames before a station. -/
def give (frames : List Bytes) (s : Station L ρ) : Station L ρ :=
  let link := frames.foldl (fun link frame => Wired.deliver frame link) s.endpoint.link
  { s with endpoint := { s.endpoint with link } }

/-- Whether neither has sent anything that has not been taken. -/
def atRest (x : Exchange L σ κ) : Bool :=
  (takeSent x.server).1.isEmpty && (takeSent x.client).1.isEmpty

/-- Note what was taken from one end, and give what arrives of it to the other, which reads it. -/
def pass {ρ' : Type} (channel : Direction → Channel) (d : Direction) (sender : Station L ρ)
    (receiver : Station L ρ') (read : Action LinkError (Station L ρ') Nat) (r : Report) :
    Station L ρ × Station L ρ' × Report :=
  let (frames, sender) := takeSent sender
  let arriving := (channel d).carry (r.count d) frames
  let r := { r with carried := r.carried ++ frames.map (d, ·) }
  match read (give arriving receiver) with
  | .ok _ receiver => (sender, receiver, r)
  | .error e receiver => (sender, receiver, { r with errors := r.errors ++ [(d, e)] })

/-- One round. -/
def round (now : Nat) (channel : Direction → Channel) (x : Exchange L σ κ) (r : Report) :
    Exchange L σ κ × Report :=
  let (server, client, r) := pass channel .toClient x.server x.client (Client.poll now) r
  let (client, server, r) := pass channel .toServer client server (Server.poll now) r
  ({ server, client }, { r with rounds := r.rounds + 1 })

/-- Rounds until the exchange comes to rest, but at most `n`. -/
def runFrom (now : Nat) (channel : Direction → Channel) :
    Nat → Exchange L σ κ → Report → Exchange L σ κ × Report
  | 0, x, r => (x, r)
  | n + 1, x, r =>
      if x.atRest then (x, r)
      else
        let (x, r) := round now channel x r
        runFrom now channel n x r

/-- Rounds until the exchange comes to rest, but at most `n`. -/
def run (now : Nat) (channel : Direction → Channel) (n : Nat) (x : Exchange L σ κ) :
    Exchange L σ κ × Report :=
  x.runFrom now channel n {}

end Exchange

end RomCast
