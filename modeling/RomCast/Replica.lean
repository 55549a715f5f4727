import RomCast.Buffer
import RomCast.ContentHash
import RomCast.Dataspace
import RomCast.Message

set_option autoImplicit false

/-!
# Replicas

The side of a module that receives.  A transfer is put together in a background buffer; when its
last fragment is there, the buffer is hashed, and only content with the announced hash becomes
visible.  The buffer is not cleared between transfers: it is cut or extended to the new length.
-/

namespace RomCast

/-- How far a replica's transfer has come. -/
inductive Phase where
  | idle
  | receiving
  | committed
  | rejected
  deriving DecidableEq, Repr, Inhabited

/-- The name of a phase. -/
def Phase.name : Phase → String
  | idle => "Idle"
  | receiving => "Receiving"
  | committed => "Committed"
  | rejected => "Rejected"

/-- How a transfer ended. -/
inductive Outcome where
  /-- The content has the announced hash and is visible now. -/
  | committed
  /-- The content has another hash; what was visible stays. -/
  | rejected
  /-- The transfer was given up. -/
  | aborted
  /-- There was no transfer. -/
  | idle
  deriving DecidableEq, Repr, Inhabited

/-- The name of an outcome. -/
def Outcome.name : Outcome → String
  | committed => "Committed"
  | rejected => "Rejected"
  | aborted => "Aborted"
  | idle => "Idle"

/-- One module on the side that receives. -/
structure Replica (κ : Type) where
  space : Dataspace κ
  /-- The transfer in flight, or what an earlier one left. -/
  background : Buffer := .empty
  /-- The hash that the transfer in flight must have. -/
  expected : ContentHash := ContentHash.zero
  phase : Phase := .idle
  /-- How many transfers became visible. -/
  commits : Nat := 0

namespace Replica

variable {κ : Type}

/-- A replica that has received nothing. -/
def new (name : ModuleName) (default : Option Bytes) : Replica κ :=
  { space := Dataspace.new name default }

/-- Begin a transfer of `length` bytes; one in flight is given up. -/
def start (r : Replica κ) (length : Nat) (expected : ContentHash) : Replica κ :=
  { r with background := r.background.resize length, expected, phase := .receiving }

/-- Whether the transfer in flight is the one for this hash. -/
def isReceiving (r : Replica κ) (hash : ContentHash) : Bool :=
  r.phase = .receiving && r.expected = hash

/-- Write into the background buffer. -/
def write (r : Replica κ) (offset : Nat) (bytes : Bytes) : Replica κ :=
  { r with background := r.background.overwrite offset bytes }

/-- Give the transfer in flight up. -/
def abort (r : Replica κ) : Outcome × Replica κ :=
  if r.phase = .receiving then (.aborted, { r with background := .empty, phase := .idle })
  else (.idle, r)

/-- Finish the transfer in flight: content with the announced hash becomes visible.  The
capabilities are the ones to signal, none unless the outcome is `committed`. -/
def commit (r : Replica κ) : Outcome × List κ × Replica κ :=
  let content := r.background.toList
  if r.phase ≠ .receiving then (.idle, [], r)
  else if ContentHash.of content ≠ r.expected then
    (.rejected, [], { r with phase := .rejected })
  else
    (.committed, r.space.signals,
      { r with
        space := r.space.publish content
        background := .empty
        phase := .committed
        commits := r.commits + 1 })

/-! ## Fragments -/

/-- What happened to a replica. -/
inductive Event (κ : Type) where
  /-- A transfer of so many bytes began. -/
  | started (length : Nat)
  /-- A transfer ended: how, in which phase and with how many commits, and whom to signal. -/
  | finished (outcome : Outcome) (phase : Phase) (commits : Nat) (signals : List κ)
  deriving DecidableEq

/-- The capabilities that an event signals. -/
def Event.signals : Event κ → List κ
  | started _ => []
  | finished _ _ _ signals => signals

/-- Give up the transfer in flight, and say so. -/
def abandon (r : Replica κ) : Replica κ × List (Event κ) :=
  let (outcome, r) := r.abort
  (r, [.finished outcome r.phase r.commits []])

/-- Finish the transfer in flight, and say so. -/
def finish (r : Replica κ) : Replica κ × List (Event κ) :=
  let (outcome, signals, r) := r.commit
  (r, [.finished outcome r.phase r.commits signals])

/-- Put a fragment's payload into the background of a transfer of its size, and finish the transfer
when the fragment is the last; a transfer of another size is given up. -/
def place (r : Replica κ) (f : Fragment) : Replica κ × List (Event κ) :=
  if r.background.size ≠ f.contentSize.toNat then r.abandon
  else
    let r := r.write f.offset.toNat f.payload
    if f.isLast then r.finish else (r, [])

/-- Take a fragment of the content with this hash.  Content of more than `limit` bytes is ignored.
A malformed fragment ends the transfer it belongs to.  The fragment at offset zero begins a
transfer; any other needs one in flight with its hash. -/
def accept (r : Replica κ) (hash : ContentHash) (f : Fragment) (limit : Nat) :
    Replica κ × List (Event κ) :=
  if limit < f.contentSize.toNat then (r, [])
  else match f.validate with
    | .error _ => if r.isReceiving hash then r.abandon else (r, [])
    | .ok () =>
        if f.offset = 0 then
          let size := f.contentSize.toNat
          let (r, events) := (r.start size hash).place f
          (r, .started size :: events)
        else if r.isReceiving hash then r.place f
        else (r, [])

end Replica

end RomCast
