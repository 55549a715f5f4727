import RomCast.Daemon.Client
import RomCast.Daemon.Event
import RomCast.Daemon.Server

set_option autoImplicit false

/-!
# Running a daemon

A daemon is the loop of its role with its timers and the files it works on.  Time passes only in
`Daemon.elapse`; the time of day that the resolution of the peer goes by is handed in separately, so
that it can stand still.
-/

namespace RomCast

/-- What a daemon is there for. -/
inductive Role where
  | server
  | client
  deriving DecidableEq, Repr, Inhabited

namespace Daemon

/-- The loop of either role. -/
inductive Loop (L : Type) where
  | server (loop : ServerLoop L)
  | client (loop : ClientLoop L)

end Daemon

/-- A running daemon. -/
structure Daemon (L : Type) where
  loop : Daemon.Loop L
  files : FileTree
  schedule : Schedule Daemon.Event
  /-- How many milliseconds have passed since the start. -/
  clock : Nat := 0

namespace Daemon

variable {L : Type} [Transport L]

/-- The timers of a role.  All but the repeated announcement go off at once for the first time. -/
def timers (role : Role) (config : Config) : Schedule Event :=
  match role with
  | .client => [(.arpTick, ⟨0, config.arp.retryInterval⟩)]
  | .server =>
      [(.sourceTick, ⟨0, config.server.pollInterval⟩), (.arpTick, ⟨0, config.arp.retryInterval⟩)] ++
        match config.server.resignalPeriod with
        | none => []
        | some period => [(.announceTick, ⟨period, period⟩)]

/-- React to an event, and then to the changes of content that came of it. -/
def handle (now : Nat) (d : Daemon L) (event : Event) : Daemon L :=
  match d.loop with
  | .server s => { d with loop := .server (s.step now d.files event) }
  | .client s =>
      let (s, files) := s.step now d.files event
      let (s, files) := s.step now files .notified
      { d with loop := .client s, files }

/-- Let time pass, and react to the timers that go off. -/
def elapse (now milliseconds : Nat) (d : Daemon L) : Daemon L :=
  let clock := d.clock + milliseconds
  let done := (d.schedule.due clock).foldl (handle now) d
  { done with clock, schedule := d.schedule.after clock }

/-- Start a daemon over a link. -/
def start (now : Nat) (role : Role) (config : Config) (link : L) :
    Action StartError FileTree (Daemon L) := do
  let settings ← Action.ofExcept (config.endpoint.mapError StartError.config)
  let endpoint := Endpoint.new link settings
  let loop ← match role with
    | .server =>
        Loop.server <$> Action.ofExcept (ServerLoop.start now config.modules endpoint (← get))
    | .client => Loop.client <$> ClientLoop.start now config endpoint
  let d := elapse now 0 { loop, files := ← get, schedule := timers role config }
  set d.files
  return d

/-- The daemon's endpoint. -/
def endpoint (d : Daemon L) : Endpoint L :=
  match d.loop with
  | .server s => s.server.endpoint
  | .client s => s.client.endpoint

/-- Change the link, as frames that arrive do. -/
def mapLink (f : L → L) (d : Daemon L) : Daemon L :=
  let change {ρ : Type} (s : Station L ρ) : Station L ρ :=
    { s with endpoint := { s.endpoint with link := f s.endpoint.link } }
  match d.loop with
  | .server s => { d with loop := .server { s with server := change s.server } }
  | .client s => { d with loop := .client { s with client := change s.client } }

end Daemon

end RomCast
