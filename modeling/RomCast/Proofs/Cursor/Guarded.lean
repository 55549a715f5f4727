import RomCast.Cursor
import RomCast.Proofs.Bytes.Overwrite
import RomCast.Proofs.Header.Canonical

set_option autoImplicit false

/-!
# Guarded steps

A step of a cursor that needs some number of bytes succeeds exactly when as many lie ahead, and then
moves over just these.  Otherwise it changes nothing, and reports where the cursor stands, what was
needed and what there is (`Guarded`).  So a cursor never leaves its byte string.
-/

namespace RomCast

/-- Something that stands at a position of a byte string. -/
class Cursor (σ : Type) where
  /-- The length of the byte string. -/
  length : σ → Nat
  /-- How many of its bytes lie behind. -/
  position : σ → Nat

namespace Cursor

variable {σ α β : Type} [Cursor σ]

/-- How many bytes lie ahead. -/
def remaining (s : σ) : Nat := length s - position s

/-- A cursor within a byte string of `n` bytes. -/
structure Within (n : Nat) (s : σ) : Prop where
  length_eq : length s = n
  position_le : position s ≤ n

theorem Within.position_add_remaining {n : Nat} {s : σ} (h : Within n s) :
    position s + remaining s = n := by
  rw [remaining, h.length_eq]
  exact Nat.add_sub_cancel' h.position_le

/-- How a step from `s` ended that needs `n` bytes.  Where it succeeded, `Q` holds of its answer and
of the cursor it left. -/
inductive Guarded (n : Nat) (s : σ) (Q : α → σ → Prop) : EStateM.Result GuardError σ α → Prop where
  | ok {a : α} {s' : σ} (room : n ≤ remaining s) (length_eq : length s' = length s)
      (position_eq : position s' = position s + n) (after : Q a s') : Guarded n s Q (.ok a s')
  | error (short : remaining s < n) : Guarded n s Q (.error ⟨position s, n, remaining s⟩ s)

variable {n : Nat} {s : σ} {Q : α → σ → Prop} {R : β → σ → Prop} {x : Action GuardError σ α}

theorem Guarded.mono {Q' : α → σ → Prop} {result : EStateM.Result GuardError σ α}
    (h : Guarded n s Q result) (hQ : ∀ a s', Q a s' → Q' a s') : Guarded n s Q' result := by
  cases h with
  | ok room length_eq position_eq after => exact .ok room length_eq position_eq (hQ _ _ after)
  | error short => exact .error short

theorem guarded_pure {b : β} (h : R b s) : Guarded 0 s R ((pure b : Action GuardError σ β) s) :=
  .ok (Nat.zero_le _) rfl rfl h

theorem guarded_modify {f : σ → σ} {R : Unit → σ → Prop} (hlength : length (f s) = length s)
    (hposition : position (f s) = position s) (h : R () (f s)) :
    Guarded 0 s R ((modify f : Action GuardError σ Unit) s) :=
  .ok (Nat.zero_le _) hlength hposition h

/-- What needs nothing may follow: it cannot fail. -/
theorem Guarded.bind {f : α → Action GuardError σ β} (h : Guarded n s Q (x s))
    (hf : ∀ a s', Q a s' → Guarded 0 s' R (f a s')) : Guarded n s R ((x >>= f) s) := by
  rw [Action.bind_apply]
  generalize x s = first at h
  cases h with
  | error short => exact .error short
  | @ok a s' room length_eq position_eq after =>
    have hsecond := hf a s' after
    show Guarded n s R (f a s')
    generalize f a s' = second at hsecond
    cases hsecond with
    | ok _ length_eq' position_eq' after' =>
      exact .ok room (length_eq'.trans length_eq) (position_eq'.trans position_eq) after'
    | error short => exact absurd short (Nat.not_lt_zero _)

/-- No step leaves the byte string. -/
theorem Guarded.within (h : Guarded n s Q (x s)) {m : Nat} (hs : Within m s) :
    Within m (x.state s) := by
  unfold Action.state
  generalize x s = result at h
  cases h with
  | error short => exact hs
  | ok room length_eq position_eq after =>
    have hroom := hs.position_add_remaining
    exact ⟨length_eq.trans hs.length_eq, by rw [position_eq]; omega⟩

/-- No step goes back. -/
theorem Guarded.position_le (h : Guarded n s Q (x s)) : position s ≤ position (x.state s) := by
  unfold Action.state
  generalize x s = result at h
  cases h with
  | error short => exact Nat.le_refl _
  | ok room length_eq position_eq after =>
    rw [position_eq]
    exact Nat.le_add_right _ _

end Cursor

open Cursor (Guarded guarded_pure guarded_modify)

/-! ## Readers -/

namespace Reader

instance : Cursor Reader where
  length r := r.bytes.length
  position := position

variable (r : Reader)

theorem take_guarded (n : Nat) :
    Guarded n r (fun taken r' => taken = r.rest.take n ∧ taken.length = n ∧ r'.bytes = r.bytes)
      (take n r) := by
  by_cases hroom : n ≤ r.remaining
  · rw [take, if_pos hroom]
    refine .ok hroom rfl rfl ⟨rfl, ?_, rfl⟩
    rw [List.length_take, rest, List.length_drop]
    exact Nat.min_eq_left hroom
  · rw [take, if_neg hroom]
    exact .error (Nat.lt_of_not_le hroom)

theorem skip_guarded (n : Nat) : Guarded n r (fun _ r' => r'.bytes = r.bytes) (skip n r) :=
  (r.take_guarded n).bind fun _ _ h => guarded_pure h.2.2

/-- A header that was read is made of the bytes that the reader moved over. -/
theorem read_guarded (α : Type) [Header α] [CanonicalHeader α] :
    Guarded (Header.size α) r (fun header r' =>
      Header.encode header = r.rest.take (Header.size α) ∧ r'.bytes = r.bytes) (read α r) := by
  refine (r.take_guarded (Header.size α)).bind fun taken r' h => guarded_pure ?_
  obtain ⟨rfl, hlength, hbytes⟩ := h
  exact ⟨CanonicalHeader.encode_decode _ hlength, hbytes⟩

end Reader

/-! ## Writers -/

namespace Writer

instance : Cursor Writer where
  length w := w.buffer.length
  position := position

variable (w : Writer)

theorem reserve_guarded (n : Nat) :
    Guarded n w (fun start w' => start = w.position ∧ w'.buffer = w.buffer) (reserve n w) := by
  by_cases hroom : n ≤ w.remaining
  · rw [reserve, if_pos hroom]
    exact .ok hroom rfl rfl ⟨rfl, rfl⟩
  · rw [reserve, if_neg hroom]
    exact .error (Nat.lt_of_not_le hroom)

theorem advance_guarded (n : Nat) : Guarded n w (fun _ w' => w'.buffer = w.buffer) (advance n w) :=
  (w.reserve_guarded n).bind fun _ _ h => guarded_pure h.2

theorem patch_guarded (start : Nat) (new : Bytes) :
    Guarded 0 w (fun _ w' => w'.buffer = w.buffer.overwrite start new) (patch start new w) :=
  guarded_modify (Bytes.length_overwrite ..) rfl rfl

theorem fillTail_guarded (new : Bytes) :
    Guarded 0 w (fun _ w' => w'.buffer = w.buffer.overwrite w.position new) (fillTail new w) :=
  w.patch_guarded w.position new

theorem putBytes_guarded (new : Bytes) :
    Guarded new.length w (fun _ w' => w'.buffer = w.buffer.overwrite w.position new)
      (putBytes new w) := by
  refine (w.reserve_guarded new.length).bind fun start w' h => ?_
  obtain ⟨rfl, hbuffer⟩ := h
  rw [← hbuffer]
  exact w'.patch_guarded w.position new

end Writer

end RomCast
