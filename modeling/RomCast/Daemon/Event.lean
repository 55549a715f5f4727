import RomCast.Config.Load

set_option autoImplicit false

/-!
# What a daemon reacts to

Events, failures to begin, and the timers that some of the events come from.
-/

namespace RomCast.Daemon

/-- Something that a daemon's loop waits for. -/
inductive Event where
  /-- Frames have arrived. -/
  | readable
  /-- A module's content has changed. -/
  | notified
  /-- It is time to look at the source files. -/
  | sourceTick
  /-- It is time to look at the resolution of the peer. -/
  | arpTick
  /-- It is time to announce every module again. -/
  | announceTick
  deriving DecidableEq, Repr, Inhabited

/-- Why a daemon's loop does not begin. -/
inductive StartError where
  | config (problem : ConfigProblem)
  | session (cause : UnknownModule)
  deriving DecidableEq, Repr, Inhabited

/-- The wording of a failure to begin. -/
def StartError.message : StartError → String
  | config problem => (ConfigError.invalid problem).message
  | session cause => cause.message

end RomCast.Daemon

/-! ## Timers

A timer goes off at a first time and then at every multiple of its period behind it.  What several
timers do within a span of time is one list, in the order of the times; of timers that go off at the
same time the one that stands first comes first. -/

namespace RomCast

/-- A timer that goes off again and again. -/
structure Timer where
  /-- When it goes off next. -/
  next : Nat
  /-- The time between going off twice. -/
  period : Nat
  deriving DecidableEq, Repr, Inhabited

namespace Timer

/-- How often the timer goes off up to a time. -/
def countUntil (t : Timer) (time : Nat) : Nat :=
  if time < t.next then 0 else (time - t.next) / t.period + 1

/-- When the timer goes off up to a time. -/
def timesUntil (t : Timer) (time : Nat) : List Nat :=
  (List.range (t.countUntil time)).map fun i => t.next + i * t.period

/-- The timer after a time. -/
def after (t : Timer) (time : Nat) : Timer :=
  { t with next := t.next + t.countUntil time * t.period }

end Timer

/-- What goes off, and when. -/
abbrev Schedule (α : Type) : Type := List (α × Timer)

namespace Schedule

variable {α : Type}

/-- What goes off up to a time, in order. -/
def due (s : Schedule α) (time : Nat) : List α :=
  let dated := List.flatMap (fun entry => (entry.2.timesUntil time).map (·, entry.1)) s
  (dated.mergeSort fun a b => decide (a.1 ≤ b.1)).map Prod.snd

/-- What goes off after a time. -/
def after (s : Schedule α) (time : Nat) : Schedule α :=
  List.map (fun entry => (entry.1, entry.2.after time)) s

end Schedule

end RomCast
