import RomCast.Link.Faulty

set_option autoImplicit false

/-!
# Wires

The two ends that a link has in memory: what it has sent can be taken, and frames can be put before
it.  Between the ends of two links lies a channel, which may damage, lose, repeat or delay frames.
-/

namespace RomCast

/-- A link whose wire is within reach. -/
class Wired (L : Type) extends Transport L where
  /-- Take everything that was sent. -/
  takeOutbound : L → List Bytes × L
  /-- Put a frame before the link. -/
  deliver : Bytes → L → L

instance : Wired MemoryLink where
  takeOutbound := MemoryLink.takeOutbound
  deliver frame link := link.deliver frame

instance : Wired FaultyLink where
  takeOutbound l :=
    let (frames, link) := l.link.takeOutbound
    (frames, { l with link })
  deliver frame l := { l with link := l.link.deliver frame }

/-! ## Channels -/

/-- What may happen to a frame on its way. -/
inductive Damage where
  /-- The frame is lost. -/
  | drop
  /-- The frame arrives twice. -/
  | duplicate
  /-- Bits of one byte are turned over. -/
  | flip (position : Nat) (mask : UInt8)
  /-- Bytes are replaced, if there is room for all of them. -/
  | replace (position : Nat) (bytes : Bytes)
  /-- The frame is cut. -/
  | truncate (length : Nat)
  /-- Bytes are put behind the frame. -/
  | append (bytes : Bytes)
  /-- The frame arrives once, behind the next one. -/
  | hold
  deriving DecidableEq, Inhabited

/-- What a channel does, to every frame or to the one with a number. -/
structure ChannelRule where
  number : Option Nat
  damage : Damage
  deriving DecidableEq, Inhabited

/-- What a channel does, in order. -/
abbrev Channel : Type := List ChannelRule

/-- A frame on its way, with the number of times that it arrives. -/
structure Transit where
  frame : Bytes
  copies : Nat := 1
  held : Bool := false
  deriving DecidableEq, Inhabited

namespace Transit

/-- Suffer one damage; a held frame suffers no more. -/
def suffer (t : Transit) (damage : Damage) : Transit :=
  if t.held then t
  else match damage with
    | .drop => { t with copies := 0 }
    | .duplicate => { t with copies := 2 }
    | .flip position mask => { t with frame := t.frame.modify position (· ^^^ mask) }
    | .replace position bytes =>
        if position + bytes.length ≤ t.frame.length then
          { t with frame := t.frame.overwrite position bytes }
        else t
    | .truncate length => { t with frame := t.frame.take length }
    | .append bytes => { t with frame := t.frame ++ bytes }
    | .hold => { t with copies := 1, held := true }

/-- What arrives of the frame. -/
def arrivals (t : Transit) : List Bytes := List.replicate t.copies t.frame

end Transit

namespace Channel

/-- What becomes of the frame with a number. -/
def treat (c : Channel) (number : Nat) (frame : Bytes) : Transit :=
  List.foldl Transit.suffer { frame }
    ((List.filter (fun rule => rule.number = none ∨ rule.number = some number) c).map
      ChannelRule.damage)

/-- What arrives of frames, the first of which has a number, while a frame may be held.  A held
frame waits for the next one, which arrives before it unless it is held itself. -/
def carryBehind (c : Channel) (held : Option Transit) (number : Nat) : List Bytes → List Bytes
  | [] => held.toList.flatMap Transit.arrivals
  | frame :: rest =>
      let t := c.treat number frame
      let waiting := held.toList.flatMap Transit.arrivals
      if t.held then waiting ++ carryBehind c (some t) (number + 1) rest
      else t.arrivals ++ waiting ++ carryBehind c none (number + 1) rest

/-- What arrives of a batch of frames, the first of which has a number. -/
def carry (c : Channel) (number : Nat) (frames : List Bytes) : List Bytes :=
  c.carryBehind none number frames

end Channel

end RomCast
