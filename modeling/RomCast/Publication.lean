import RomCast.ContentHash
import RomCast.ModuleName

set_option autoImplicit false

/-!
# Publications

What a server has to offer under a module's name.  A publication serves the content it was given
last, and its default while it has been given none; a text publication ends at the first zero byte.
A server and those who have content for it hold the same publications (`Holdings`): what one holder
gives, the others serve.
-/

namespace RomCast

/-! ## Content sources

What a server streams from.  A source need not hold its bytes: all that a transfer asks of it is how
long it is, which hash to announce, and some bytes from an offset on. -/

/-- Something a server can stream: how long it is, its hash, and its bytes from an offset on. -/
class ContentSource (σ : Type) where
  size : σ → Nat
  hash : σ → ContentHash
  /-- At most `room` bytes from `offset` on. -/
  read : σ → (room offset : Nat) → Bytes

/-- A source of either kind. -/
instance {σ τ : Type} [ContentSource σ] [ContentSource τ] : ContentSource (σ ⊕ τ) where
  size := Sum.elim ContentSource.size ContentSource.size
  hash := Sum.elim ContentSource.hash ContentSource.hash
  read := Sum.elim ContentSource.read ContentSource.read

/-- Zero bytes under a hash that need not be theirs. -/
structure ClaimedZeros where
  size : Nat
  hash : ContentHash
  deriving DecidableEq, Inhabited

instance : ContentSource ClaimedZeros where
  size := ClaimedZeros.size
  hash := ClaimedZeros.hash
  read s room offset := Bytes.zeros (min room (s.size - offset))

/-! ## What is served under a name -/

/-- The content of one module on the side that serves it. -/
structure Publication where
  name : ModuleName
  /-- Whether zero bytes are content like any other. -/
  binary : Bool
  default : Option Bytes
  /-- What it was given last. -/
  live : Option Bytes := none
  /-- What a transfer carries now. -/
  content : Bytes
  /-- The hash of what a transfer carries now. -/
  hash : ContentHash
  deriving DecidableEq

namespace Publication

/-- What is served of given bytes. -/
def effective (binary : Bool) (given : Bytes) : Bytes := if binary then given else given.untilNul

/-- What a publication with these parts serves. -/
def served (binary : Bool) (default live : Option Bytes) : Bytes :=
  effective binary ((live.or default).getD [])

/-- The same publication with other live content. -/
def withLive (p : Publication) (live : Option Bytes) : Publication :=
  let content := served p.binary p.default live
  { p with live, content, hash := ContentHash.of content }

/-- A publication that has been given nothing. -/
def new (name : ModuleName) (binary : Bool) (default : Option Bytes) : Publication :=
  let content := served binary default none
  { name, binary, default, content, hash := ContentHash.of content }

/-- Give it content; the answer is whether what it serves has changed. -/
def update (p : Publication) (content : Bytes) : Bool × Publication :=
  let p' := p.withLive (some content)
  (p.hash ≠ p'.hash, p')

/-- Take its content away; the answer is whether what it serves has changed. -/
def clear (p : Publication) : Bool × Publication :=
  match p.live with
  | none => (false, p)
  | some _ =>
      let p' := p.withLive none
      (p.hash ≠ p'.hash, p')

/-- At most `room` bytes of what it serves, from `offset` on. -/
def transfer (p : Publication) (room offset : Nat) : Bytes := (p.content.drop offset).take room

/-- Transfer to the front of a place, from `offset` on; the answer is how many bytes there are, and
the place. -/
def transferInto (p : Publication) (offset : Nat) (place : Bytes) : Nat × Bytes :=
  let bytes := p.transfer place.length offset
  (bytes.length, place.overwrite 0 bytes)

instance : ContentSource Publication where
  size p := p.content.length
  hash := Publication.hash
  read := transfer

end Publication

/-! ## Holding publications -/

/-- What a holder does to the publication that it holds. -/
inductive Feed where
  | give (content : Bytes)
  | withdraw
  deriving DecidableEq

/-- Feed a publication; the answer is whether what it serves has changed. -/
def Publication.feed (p : Publication) : Feed → Bool × Publication
  | .give content => p.update content
  | .withdraw => p.clear

/-- Publications, and which of them each holder holds. -/
structure Holdings where
  publications : List Publication
  holders : List Nat
  held : ∀ i ∈ holders, i < publications.length

namespace Holdings

/-- Nothing is published. -/
def empty : Holdings := ⟨[], [], nofun⟩

/-- What a holder holds. -/
def seen? (s : Holdings) (holder : Nat) : Option Publication :=
  s.holders[holder]?.bind fun i => s.publications[i]?

/-- A new publication, with a first holder. -/
def publish (s : Holdings) (name : ModuleName) (binary : Bool) (default : Option Bytes) :
    Holdings where
  publications := s.publications ++ [.new name binary default]
  holders := s.holders ++ [s.publications.length]
  held := by
    intro i hi
    rw [List.length_append, List.length_singleton]
    rcases List.mem_append.mp hi with hold | hnew
    · exact Nat.lt_succ_of_lt (s.held i hold)
    · exact Nat.lt_succ_of_le (Nat.le_of_eq (List.mem_singleton.mp hnew))

/-- One more holder of what a holder holds. -/
def share (s : Holdings) (holder : Nat) : Holdings where
  publications := s.publications
  holders := s.holders ++ s.holders[holder]?.toList
  held := by
    intro i hi
    rcases List.mem_append.mp hi with hold | hnew
    · exact s.held i hold
    · exact s.held i (List.mem_of_getElem? (Option.mem_toList.mp hnew))

/-- The publications when a holder has fed what it holds. -/
def fedPublications (s : Holdings) (holder : Nat) (what : Feed) : List Publication :=
  match s.holders[holder]? with
  | none => s.publications
  | some i => s.publications.modify i fun p => (p.feed what).2

theorem length_fedPublications (s : Holdings) (holder : Nat) (what : Feed) :
    (s.fedPublications holder what).length = s.publications.length := by
  unfold fedPublications
  split
  · rfl
  · exact List.length_modify ..

/-- A holder feeds what it holds; the answer is whether what is served has changed. -/
def feed (s : Holdings) (holder : Nat) (what : Feed) : Option Bool × Holdings :=
  ((s.seen? holder).map fun p => (p.feed what).1,
    { publications := s.fedPublications holder what
      holders := s.holders
      held := fun i hi => (s.length_fedPublications holder what).symm ▸ s.held i hi })

end Holdings

end RomCast
