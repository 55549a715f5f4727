import RomCast.Address

set_option autoImplicit false

/-!
# Resolving the peer's hardware address

An endpoint with a configured peer asks for the peer's hardware address, repeats the question at an
interval, and gives up after a number of attempts.  It takes the address from the answer, or from
any traffic of the peer.  Until it has one, everything goes to the broadcast address.  Once it has
one, it keeps it.

Times are milliseconds on one clock.
-/

namespace RomCast

/-- How far a resolution has come. -/
inductive Resolution where
  | idle
  /-- So many questions were asked, the last of them at `lastSent`. -/
  | awaiting (attempts lastSent : Nat)
  | resolved (mac : Mac)
  deriving DecidableEq, Inhabited

/-- What has to be done when the timer was looked at. -/
inductive ResolverAction where
  | none
  /-- Ask again. -/
  | resend
  /-- The last question stayed unanswered, and no more will be asked. -/
  | gaveUp
  deriving DecidableEq, Repr, Inhabited

/-- The resolution of one peer. -/
structure Resolver where
  /-- The peer's address; without one there is nothing to resolve. -/
  target : Option Ipv4Address
  state : Resolution := .idle
  interval : Nat
  /-- How many questions are asked at most; at least one. -/
  maxAttempts : Nat
  deriving DecidableEq, Inhabited

namespace Resolver

/-- A resolution that has not begun. -/
def new (target : Option Ipv4Address) (interval maxRetries : Nat) : Resolver :=
  { target, interval, maxAttempts := max maxRetries 1 }

/-- The same with an address that is known from the start. -/
def withStatic (r : Resolver) (mac : Mac) : Resolver := { r with state := .resolved mac }

/-- Where frames for the peer go. -/
def peerMac (r : Resolver) : Mac :=
  match r.state with
  | .resolved mac => mac
  | _ => Mac.broadcast

/-- Whether a question has to be asked before a datagram is sent. -/
def needsRequest (r : Resolver) : Bool := r.target.isSome && r.state = .idle

/-- A question was sent. -/
def requestSent (r : Resolver) (now : Nat) : Resolver :=
  match r.state with
  | .idle => { r with state := .awaiting 1 now }
  | .awaiting attempts _ => { r with state := .awaiting (attempts + 1) now }
  | .resolved _ => r

/-- Look at the timer. -/
def poll (r : Resolver) (now : Nat) : ResolverAction × Resolver :=
  match r.state with
  | .awaiting attempts lastSent =>
      if now - lastSent < r.interval then (.none, r)
      else if r.maxAttempts ≤ attempts then (.gaveUp, { r with state := .idle })
      else (.resend, r)
  | _ => (.none, r)

/-- An answer came; it counts while one is awaited, and when it is about the peer. -/
def handleReply (r : Resolver) (ip : Ipv4Address) (mac : Mac) : Bool × Resolver :=
  match r.state with
  | .awaiting _ _ =>
      if r.target = some ip then (true, { r with state := .resolved mac }) else (false, r)
  | _ => (false, r)

/-- A frame of `ip` came from `mac`; it counts when it is the peer's, unless the address is known
already or cannot be one card's. -/
def learn (r : Resolver) (ip : Ipv4Address) (mac : Mac) : Bool × Resolver :=
  match r.state with
  | .resolved _ => (false, r)
  | _ =>
      if r.target = some ip ∧ mac ≠ Mac.broadcast ∧ mac ≠ Mac.zero then
        (true, { r with state := .resolved mac })
      else (false, r)

end Resolver

end RomCast
