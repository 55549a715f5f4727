import RomCast.Link.Memory

set_option autoImplicit false

/-!
# Links that fail

A link in memory of which one can say beforehand how many of the next calls of each operation fail.
A buffer whose submission fails is lost: it is neither free nor waiting.  A collection that fails
hands nothing out, and what was sent stays where it is.
-/

namespace RomCast

/-- The operations of a link that may fail. -/
inductive LinkOperation where
  | alloc
  | submit
  | collect
  | process
  | receive
  deriving DecidableEq, Repr, Inhabited

/-- A link in memory some of whose next calls fail. -/
structure FaultyLink where
  link : MemoryLink
  /-- How many of the next calls of an operation fail. -/
  faults : LinkOperation → Nat := fun _ => 0
  /-- Whether frames can be submitted without sending waiting ones first. -/
  isReady : Bool := true

namespace FaultyLink

/-- Let the next `n` calls of an operation fail. -/
def plan (operation : LinkOperation) (n : Nat) (l : FaultyLink) : FaultyLink :=
  { l with faults := fun o => if o = operation then n else l.faults o }

/-- What a failing call reports. -/
def failure : LinkError := .failed .ioError

/-- A step on the link below. -/
def onLink {α : Type} (x : Action LinkError MemoryLink α) : Action LinkError FaultyLink α :=
  x.on FaultyLink.link fun link l => { l with link }

/-- Call an operation, unless this call of it is to fail. -/
def call {τ α : Type} (operation : LinkOperation) (part : τ → FaultyLink)
    (put : FaultyLink → τ → τ) (x : Action LinkError τ α) : Action LinkError τ α := fun s =>
  match (part s).faults operation with
  | 0 => x s
  | n + 1 => .error failure (put ((part s).plan operation n) s)

/-- The same for an operation on the link alone. -/
def callOn {α : Type} (operation : LinkOperation) (x : Action LinkError MemoryLink α) :
    Action LinkError FaultyLink α :=
  call operation id (fun l _ => l) (onLink x)

instance : Transport FaultyLink where
  mac l := l.link.mac
  pool l := l.link.pool
  setPool p l := { l with link := { l.link with pool := p } }
  pending l := l.link.inbound.length
  ready := FaultyLink.isReady
  alloc length := callOn .alloc (Transport.alloc length)
  submit d := callOn .submit (Transport.submit d)
  takeAcked l :=
    match l.faults .collect with
    | 0 =>
        let (d, link) := Transport.takeAcked l.link
        (d, { l with link })
    | n + 1 => (none, l.plan .collect n)
  process := callOn .process Transport.process
  receive :=
    call .receive Prod.fst (fun l s => (l, s.2))
      (Transport.receive.on (fun s : FaultyLink × Bytes => (s.1.link, s.2))
        fun (link, buffer) s => ({ s.1 with link }, buffer))

end FaultyLink

end RomCast
