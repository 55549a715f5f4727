import RomCast.Replica

set_option autoImplicit false

/-!
# Observed replicas

A replica together with its sessions, which go by names, and with what their capabilities have done.
Counters and flags go by names too: two sessions may register the same one, which is then signalled
once for each of them.  Signalling a capability may attach one more session, which is not signalled
before the next time.
-/

namespace RomCast

/-- What a session registers, to be told of new content. -/
inductive Capability where
  /-- Counts, under a name, how often it is signalled. -/
  | counter (name : String)
  /-- Raises the flag of a name. -/
  | flag (name : String)
  /-- Attaches a session under a label; a refused label is passed over. -/
  | opener (label : String)
  deriving DecidableEq, Repr, Inhabited

/-- A replica, the numbers of its sessions, and the counters and flags that they have registered. -/
structure Observed where
  replica : Replica Capability
  sessions : List (String × Nat) := []
  counts : List (String × Nat) := []
  flags : List (String × Permit) := []

namespace Observed

/-- Change the dataspace. -/
def mapSpace (f : Dataspace Capability → Dataspace Capability) (o : Observed) : Observed :=
  { o with replica := { o.replica with space := f o.replica.space } }

/-- Change what stands under a name; without the name, the change of a start goes under it. -/
def update {α : Type} (name : String) (start : α) (f : α → α) :
    List (String × α) → List (String × α)
  | [] => [(name, f start)]
  | entry :: rest =>
      if entry.1 = name then (name, f entry.2) :: rest else entry :: update name start f rest

/-- Have the counter or the flag of a capability, unsignalled if it is new. -/
def provide (o : Observed) : Capability → Observed
  | .counter name => { o with counts := update name 0 id o.counts }
  | .flag name => { o with flags := update name {} id o.flags }
  | .opener _ => o

/-- Signal one capability. -/
def signal (o : Observed) : Capability → Observed
  | .counter name => { o with counts := update name 0 (· + 1) o.counts }
  | .flag name => { o with flags := update name {} Permit.signal o.flags }
  | .opener label =>
      match o.replica.space.attach label with
      | .ok (_, space) => { o with replica := { o.replica with space } }
      | .error _ => o

/-- Signal capabilities, one after the other. -/
def signalAll (o : Observed) (capabilities : List Capability) : Observed :=
  capabilities.foldl signal o

/-- Signal every session; the answer is how many there were to signal. -/
def notify (o : Observed) : Nat × Observed :=
  let capabilities := o.replica.space.signals
  (capabilities.length, o.signalAll capabilities)

/-- Finish the transfer in flight, and signal every session if it became visible. -/
def commit (o : Observed) : Outcome × Observed :=
  let (outcome, capabilities, replica) := o.replica.commit
  (outcome, { o with replica }.signalAll capabilities)

/-- Look at a flag, and lower it; a flag that nobody registered is never raised. -/
def takePermit (o : Observed) (name : String) : Bool × Observed :=
  match o.flags.lookup name with
  | none => (false, o)
  | some flag => (flag.stored, { o with flags := update name {} (fun flag => flag.take.2) o.flags })

/-! ## Sessions -/

/-- The session of a name. -/
def session? (o : Observed) (name : String) : Option Nat := o.sessions.lookup name

/-- Forget a session, if there is one of that name. -/
def forget (o : Observed) (name : String) : Observed :=
  match o.session? name with
  | none => o
  | some id =>
      { o.mapSpace (·.detach id) with sessions := o.sessions.filter fun entry => entry.1 ≠ name }

/-- Attach a session under a name, in place of an earlier one of that name, which stays attached
when the label is refused. -/
def attach (o : Observed) (name label : String) : Except UnknownModule Observed := do
  let (id, space) ← o.replica.space.attach label
  let o := (o.mapSpace fun _ => space).forget name
  return { o with sessions := (name, id) :: o.sessions }

/-- Detach a session; the answer is whether there was one. -/
def detach (o : Observed) (name : String) : Bool × Observed :=
  ((o.session? name).isSome, o.forget name)

/-- Register a capability for a session, if there is one of that name. -/
def register (o : Observed) (name : String) (c : Capability) : Observed :=
  match o.session? name with
  | none => o.provide c
  | some id => (o.mapSpace (·.register id c)).provide c

end Observed

end RomCast
