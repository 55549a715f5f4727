import RomCast.Link.Transport
import RomCast.Proofs.Action

set_option autoImplicit false

/-!
# Links that answer alike

What an endpoint does depends on the link below it only through what the link's operations answer.
A `LinkRelation` says of two links that every operation answers the same on both, and how they are
related before and after: while no buffer is in use, and while a writer holds one.  Whatever a
relation says beyond that is an invariant of both links, and is kept by everything that an endpoint
does.
-/

namespace RomCast

open RomCast.Action (Agree)

/-- A relation of two links that every operation keeps: which buffer a writer holds, if any, and how
many frames have been submitted. -/
structure LinkRelation (L M : Type) [Transport L] [Transport M] where
  Related : Option Descriptor → Nat → L → M → Prop
  pool_eq : ∀ {held : Option Descriptor} {n : Nat} {l : L} {m : M}, Related held n l m →
    Transport.pool m = Transport.pool l
  mac_eq : ∀ {held : Option Descriptor} {n : Nat} {l : L} {m : M}, Related held n l m →
    Transport.mac m = Transport.mac l
  pending_eq : ∀ {held : Option Descriptor} {n : Nat} {l : L} {m : M}, Related held n l m →
    Transport.pending m = Transport.pending l
  ready_eq : ∀ {held : Option Descriptor} {n : Nat} {l : L} {m : M}, Related held n l m →
    Transport.ready m = Transport.ready l
  /-- Who asks for a buffer holds none, and holds the one that is handed out. -/
  alloc : ∀ {n : Nat} {l : L} {m : M}, Related none n l m → ∀ length : Nat,
    Agree (fun d => Related (some d) n) (Related none n) (Transport.alloc length l)
      (Transport.alloc length m)
  /-- What is collected is held until it is released. -/
  collect : ∀ {n : Nat} {l : L} {m : M}, Related none n l m →
    (Transport.takeAcked m).1 = (Transport.takeAcked l).1 ∧
      Related (Transport.takeAcked l).1 n (Transport.takeAcked l).2 (Transport.takeAcked m).2
  store : ∀ {d : Descriptor} {n : Nat} {l : L} {m : M}, Related (some d) n l m → ∀ bytes : Bytes,
    Related (some d) n (Transport.store l d bytes) (Transport.store m d bytes)
  truncate : ∀ {d : Descriptor} {n : Nat} {l : L} {m : M}, Related (some d) n l m →
    ∀ length : Nat, Related (some (d.truncate length)) n l m
  release : ∀ {d : Descriptor} {n : Nat} {l : L} {m : M}, Related (some d) n l m →
    Related none n (Transport.release l d) (Transport.release m d)
  /-- Submitting does not fail: a buffer whose submission failed would be lost. -/
  submit : ∀ {d : Descriptor} {n : Nat} {l : L} {m : M}, Related (some d) n l m →
    ∃ l' m', Transport.submit d l = .ok () l' ∧ Transport.submit d m = .ok () m' ∧
      Related none (n + 1) l' m'
  process : ∀ {held : Option Descriptor} {n : Nat} {l : L} {m : M}, Related held n l m →
    ∃ l' m', Transport.process l = .ok () l' ∧ Transport.process m = .ok () m' ∧
      Related held n l' m'
  receive : ∀ {n : Nat} {l : L} {m : M}, Related none n l m → ∀ buffer : Bytes,
    Agree (fun _ s t => t.2 = s.2 ∧ Related none n s.1 t.1)
      (fun s t => t.2 = s.2 ∧ Related none n s.1 t.1)
      (Transport.receive (l, buffer)) (Transport.receive (m, buffer))

namespace LinkRelation

variable {L M : Type} [Transport L] [Transport M] {R : LinkRelation L M} {n : Nat} {l : L} {m : M}

theorem content_eq {held : Option Descriptor} (h : R.Related held n l m) (d : Descriptor) :
    Transport.content m d = Transport.content l d := by
  rw [Transport.content, Transport.content, R.pool_eq h]

theorem drainAcksFrom (count : Nat) (h : R.Related none n l m) :
    R.Related none n (Transport.drainAcksFrom count l) (Transport.drainAcksFrom count m) := by
  induction count generalizing l m with
  | zero => exact h
  | succ count ih =>
    have havailable : Transport.ackAvailable m = Transport.ackAvailable l := by
      rw [Transport.ackAvailable, Transport.ackAvailable, R.pool_eq h]
    obtain ⟨hsame, hcollected⟩ := R.collect h
    unfold Transport.drainAcksFrom
    rw [havailable]
    cases Transport.ackAvailable l with
    | false => exact h
    | true =>
      simp only [if_true]
      generalize Transport.takeAcked l = taken at hsame hcollected
      generalize Transport.takeAcked m = taken' at hsame hcollected
      obtain ⟨d?, l'⟩ := taken
      obtain ⟨d?', m'⟩ := taken'
      obtain rfl : d?' = d? := hsame
      cases d?' with
      | none => exact hcollected
      | some d => exact ih (R.release hcollected)

theorem drainAcks (h : R.Related none n l m) :
    R.Related none n (Transport.drainAcks l) (Transport.drainAcks m) := by
  unfold Transport.drainAcks
  rw [R.pool_eq h]
  exact drainAcksFrom _ h

end LinkRelation

end RomCast
