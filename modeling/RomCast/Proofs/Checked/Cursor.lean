import RomCast.Proofs.Checked.Step
import RomCast.Proofs.Endpoint.Inbound

set_option autoImplicit false

/-!
# Checked readers and writers

Before a cursor takes bytes it compares what it needs with what remains, and then slices, adds and
copies.  As long as it stands within its buffer, none of these faults.
-/

namespace RomCast

open RomCast.Checked

namespace Reader.Checked

/-- How many bytes have not been read. -/
def remaining (r : Reader) : Except Fault Nat := sub r.bytes.length r.position

/-- Read a header; the reader behind it comes with it.  The report of a refusal is made before it is
known whether there is one. -/
def read (α : Type) [Header α] (r : Reader) : Except (Trap GuardError) (α × Reader) := do
  let rest ← slice r.bytes r.position r.bytes.length
  let refused : GuardError := ⟨r.position, Header.size α, ← remaining r⟩
  if rest.length < Header.size α then .error (.failure refused)
  else do
    let position ← add r.position (Header.size α)
    return (Header.decode (rest.take (Header.size α)), { r with position })

/-- Move over the next `n` bytes. -/
def skip (n : Nat) (r : Reader) : Except (Trap GuardError) Reader := do
  if (← remaining r) < n then .error (.failure ⟨r.position, n, ← remaining r⟩)
  else do
    let position ← add r.position n
    let _ ← slice r.bytes r.position position
    return { r with position }

/-- The header at the front of a byte string. -/
def readFront (α : Type) [Header α] (bytes : Bytes) : Except (Trap GuardError) α := do
  return (← read α { bytes }).1

variable {α : Type} [Header α] {b : Bytes} {n : Nat}

theorem read_eq (hn : n ≤ b.length) (hb : b.length < 2 ^ 64) :
    read α ⟨b, n⟩ = if Header.size α ≤ b.length - n then
        .ok (Header.decode ((b.drop n).take (Header.size α)), ⟨b, n + Header.size α⟩)
      else .error (.failure ⟨n, Header.size α, b.length - n⟩) := by
  have hremaining : remaining ⟨b, n⟩ = .ok (b.length - n) := sub_eq hn
  simp only [read, slice_end_eq hn, hremaining, lift_ok, pure_bind, List.length_drop]
  by_cases hsize : Header.size α ≤ b.length - n
  · have hadd : add n (Header.size α) = .ok (n + Header.size α) := add_eq (by omega)
    rw [if_pos hsize, if_neg (Nat.not_lt.mpr hsize), hadd]
    rfl
  · rw [if_neg hsize]
    exact if_pos (Nat.not_le.mp hsize)

theorem skip_eq (hn : n ≤ b.length) (hb : b.length < 2 ^ 64) {m : Nat} (hm : m ≤ b.length - n) :
    skip m ⟨b, n⟩ = .ok ⟨b, n + m⟩ := by
  have hremaining : remaining ⟨b, n⟩ = .ok (b.length - n) := sub_eq hn
  have hadd : add n m = .ok (n + m) := add_eq (by omega)
  have hslice : slice b n (n + m) = .ok (b.slice n (n + m)) := slice_eq (by omega) (by omega)
  simp only [skip, hremaining, hadd, hslice, lift_ok, pure_bind]
  exact if_neg (Nat.not_lt.mpr hm)

/-- Reading at the front faults at nothing. -/
theorem readFront_eq (hb : b.length < 2 ^ 64) :
    readFront α b = (Reader.readFront α b).mapError Trap.failure := by
  rw [readFront, read_eq (Nat.zero_le _) hb, Reader.readFront_eq, Nat.sub_zero, List.drop_zero]
  split <;> rfl

end Reader.Checked

namespace Header.Checked

/-- The header that starts at `offset`, when all of it lies within the buffer. -/
def view (α : Type) [Header α] (offset : Nat) (b : Bytes) : Except (Trap GuardError) α :=
  let refused : GuardError := ⟨offset, Header.size α, b.length - offset⟩
  if b.length < offset then .error (.failure refused)
  else do
    let rest ← slice b offset b.length
    if rest.length < Header.size α then .error (.failure refused)
    else return Header.decode (rest.take (Header.size α))

theorem view_eq {α : Type} [Header α] (hsize : 0 < Header.size α) (offset : Nat) (b : Bytes) :
    view α offset b = ((Reader.read α).result ⟨b, offset⟩).mapError Trap.failure := by
  rw [Reader.result_read_eq, view]
  by_cases hoffset : b.length < offset
  · rw [if_pos hoffset, if_neg (by omega)]
    rfl
  · rw [if_neg hoffset, slice_end_eq (Nat.not_lt.mp hoffset)]
    by_cases hroom : Header.size α ≤ b.length - offset
    · rw [if_pos hroom]
      refine if_neg (Nat.not_lt.mpr ?_)
      rwa [List.length_drop]
    · rw [if_neg hroom]
      refine if_pos ?_
      rw [List.length_drop]
      exact Nat.not_le.mp hroom

end Header.Checked

namespace Writer

/-- A writer on `size` bytes of which at least `low` are claimed. -/
structure Within (size low : Nat) (w : Writer) : Prop where
  length_eq : w.buffer.length = size
  low_le : low ≤ w.position
  le_size : w.position ≤ size

theorem Within.mono {size low low' : Nat} {w : Writer} (h : Within size low w) (hle : low' ≤ low) :
    Within size low' w :=
  ⟨h.length_eq, Nat.le_trans hle h.low_le, h.le_size⟩

/-- What is written into a buffer leaves the claims as they are. -/
theorem Within.overwrite {size low : Nat} {w : Writer} (h : Within size low w) (start : Nat)
    (bytes : Bytes) : Within size low { w with buffer := w.buffer.overwrite start bytes } :=
  ⟨(Bytes.length_overwrite ..).trans h.length_eq, h.low_le, h.le_size⟩

namespace Checked

/-- How many bytes have not been claimed. -/
def remaining (w : Writer) : Except Fault Nat := sub w.buffer.length w.position

/-- Claim `n` bytes; the answer is where they start. -/
def reserve (n : Nat) : Action (Trap GuardError) Writer Nat := do
  let w ← get
  if (← remaining w) < n then throw (.failure ⟨w.position, n, ← remaining w⟩)
  else do
    let position ← add w.position n
    set { w with position }
    return w.position

/-- Claim `n` bytes that hold what they should already. -/
def advance (n : Nat) : Action (Trap GuardError) Writer Unit := do
  let _ ← reserve n

/-- Change the bytes of a claimed range. -/
def patch (start stop : Nat) (bytes : Bytes) : Action (Trap GuardError) Writer Unit :=
  change fun w => do return { w with buffer := ← copy w.buffer start stop bytes }

/-- Claim the next bytes and write them. -/
def putBytes (bytes : Bytes) : Action (Trap GuardError) Writer Unit := do
  let start ← reserve bytes.length
  patch start (start + bytes.length) bytes

/-- Claim the next bytes and write a header into them. -/
def put {α : Type} [Header α] (header : α) : Action (Trap GuardError) Writer Unit :=
  putBytes (Header.encode header)

variable {size low : Nat}

theorem remaining_eq {w : Writer} (h : Within size low w) :
    remaining w = .ok (size - w.position) := by
  rw [remaining, h.length_eq]
  exact sub_eq h.le_size

theorem reserve_follows (hsize : size < 2 ^ 64) (n : Nat) :
    Follows never (Within size low) (reserve n) (Writer.reserve n)
      (fun start w => low ≤ start ∧ Within size (start + n) w) fun _ => True := by
  refine ⟨fun w hw => ?_, fun _ _ hnever => hnever.elim⟩
  have hwithin := hw.le_size
  have hremaining : w.remaining = size - w.position := by rw [Writer.remaining, hw.length_eq]
  by_cases hroom : n ≤ size - w.position
  · have hstrict : reserve n w = .ok w.position { w with position := w.position + n } := by
      have hadd : add w.position n = .ok (w.position + n) := add_eq (by omega)
      simp only [reserve, Action.bind_apply, Action.get_apply, remaining_eq hw, hadd,
        lift_ok_action, Action.pure_apply]
      rw [if_neg (Nat.not_lt.mpr hroom)]
      rfl
    have hplain : Writer.reserve n w = .ok w.position { w with position := w.position + n } := by
      rw [Writer.reserve, hremaining, if_pos hroom]
    rw [hstrict, hplain]
    exact .ok ⟨hw.low_le, hw.length_eq, Nat.le_refl _, by show w.position + n ≤ size; omega⟩
  · have hstrict : reserve n w = .error (.failure ⟨w.position, n, size - w.position⟩) w := by
      simp only [reserve, Action.bind_apply, Action.get_apply, remaining_eq hw, lift_ok_action,
        Action.pure_apply]
      rw [if_pos (Nat.not_le.mp hroom)]
      rfl
    have hplain : Writer.reserve n w = .error ⟨w.position, n, size - w.position⟩ w := by
      rw [Writer.reserve, Writer.refusal, hremaining, if_neg hroom]
    rw [hstrict, hplain]
    exact .error trivial

theorem advance_follows (hsize : size < 2 ^ 64) (n : Nat) :
    Follows never (Within size low) (advance n) (Writer.advance n) (fun _ => Within size (low + n))
      fun _ => True :=
  (reserve_follows hsize n).bind fun _ =>
    follows_pure fun _ hw => hw.2.mono (Nat.add_le_add_right hw.1 n)

theorem patch_follows {start stop : Nat} {bytes : Bytes} (hstop : start + bytes.length = stop)
    (hlow : stop ≤ low) :
    Follows never (Within size low) (patch start stop bytes) (Writer.patch start bytes)
      (fun _ => Within size low) fun _ => True := by
  refine follows_change (fun w hw => ?_) (fun _ hw => hw.overwrite start bytes) fun _ _ h => h
  have hbelow := hw.low_le
  have hwithin := hw.le_size
  rw [copy_eq hstop (by rw [hw.length_eq]; omega)]
  rfl

theorem putBytes_follows (hsize : size < 2 ^ 64) (bytes : Bytes) :
    Follows never (Within size low) (putBytes bytes) (Writer.putBytes bytes)
      (fun _ => Within size (low + bytes.length)) fun _ => True := by
  refine (reserve_follows hsize bytes.length).bind fun start => follows_of_and fun hstart => ?_
  exact (patch_follows rfl (Nat.le_refl _)).mono (fun _ h => h)
    (fun _ _ hafter => hafter.mono (Nat.add_le_add_right hstart _)) fun _ h => h

theorem put_follows {α : Type} [Header α] [LawfulHeader α] (hsize : size < 2 ^ 64) (header : α) :
    Follows never (Within size low) (put header) (Writer.put header)
      (fun _ => Within size (low + Header.size α)) fun _ => True := by
  rw [← LawfulHeader.length_encode header]
  exact putBytes_follows hsize _

end Checked

end Writer

end RomCast
