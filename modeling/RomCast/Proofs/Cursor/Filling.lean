import RomCast.Cursor
import RomCast.Proofs.Bytes.Overwrite
import RomCast.Proofs.Header.Lawful

set_option autoImplicit false

/-!
# What writers write

A writer is what has been claimed, followed by what has not.  A step `Fills` a byte string when it
claims just as many bytes and leaves the byte string in them, wherever the writer stands.
-/

namespace RomCast

namespace Writer

variable {α : Type}

/-- The writer that has claimed `done`, with `rest` behind it. -/
def holding (done rest : Bytes) : Writer := ⟨done ++ rest, done.length⟩

@[simp] theorem buffer_holding (done rest : Bytes) : (holding done rest).buffer = done ++ rest := rfl

@[simp] theorem position_holding (done rest : Bytes) :
    (holding done rest).position = done.length := rfl

@[simp] theorem remaining_holding (done rest : Bytes) :
    (holding done rest).remaining = rest.length := by
  simp [remaining]

@[simp] theorem tail_holding (done rest : Bytes) : (holding done rest).tail = rest := by
  simp [tail]

/-- Claiming moves bytes from what follows to what has been claimed. -/
theorem reserve_holding (done part rest : Bytes) :
    reserve part.length (holding done (part ++ rest)) =
      .ok done.length (holding (done ++ part) rest) := by
  have hroom : part.length ≤ (holding done (part ++ rest)).remaining := by simp
  rw [reserve, if_pos hroom]
  simp [holding]

/-- Changing a part of what has been claimed. -/
theorem patch_holding (front old back new rest : Bytes) (h : new.length = old.length) :
    patch front.length new (holding (front ++ (old ++ back)) rest) =
      .ok () (holding (front ++ (new ++ back)) rest) := by
  have hbuffer : (front ++ (old ++ back) ++ rest).overwrite front.length new =
      front ++ (new ++ back) ++ rest := by
    simpa using Bytes.overwrite_middle front old (back ++ rest) new h
  simp only [patch, Action.modify_apply, buffer_holding, hbuffer, position_holding]
  simp [holding, h]

/-- Writing behind what has been claimed. -/
theorem fillTail_holding (done old rest new : Bytes) (h : new.length = old.length) :
    fillTail new (holding done (old ++ rest)) = .ok () (holding done (new ++ rest)) := by
  simp only [fillTail, Action.modify_apply, buffer_holding, position_holding]
  rw [Bytes.overwrite_middle done old rest new h]
  rfl

/-- Claiming bytes and writing them. -/
theorem putBytes_holding (done old rest bytes : Bytes) (h : bytes.length = old.length) :
    putBytes bytes (holding done (old ++ rest)) = .ok () (holding (done ++ bytes) rest) := by
  have hpatch := patch_holding done old [] bytes rest h
  simp only [List.append_nil] at hpatch
  simp only [putBytes, Action.bind_apply]
  rw [h, reserve_holding]
  exact hpatch

/-- A step writes these bytes and claims them. -/
def Fills (fill : Action GuardError Writer Unit) (bytes : Bytes) : Prop :=
  ∀ done old rest : Bytes, old.length = bytes.length →
    fill (holding done (old ++ rest)) = .ok () (holding (done ++ bytes) rest)

/-- A step does so where there is this much room at least. -/
def FillsWithin (room : Nat) (fill : Action GuardError Writer Unit) (bytes : Bytes) : Prop :=
  ∀ done old rest : Bytes, old.length = bytes.length → room ≤ old.length + rest.length →
    fill (holding done (old ++ rest)) = .ok () (holding (done ++ bytes) rest)

theorem Fills.within {fill : Action GuardError Writer Unit} {bytes : Bytes} (h : Fills fill bytes)
    (room : Nat) : FillsWithin room fill bytes :=
  fun done old rest hold _ => h done old rest hold

theorem put_fills {α : Type} [Header α] (h : α) : Fills (put h) (Header.encode h) := by
  intro done old rest hlength
  exact putBytes_holding done old rest (Header.encode h) hlength.symm

end Writer

end RomCast
