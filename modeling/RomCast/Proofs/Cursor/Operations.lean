import RomCast.Proofs.Checked.Cursor
import RomCast.Proofs.Cursor.Guarded

set_option autoImplicit false

/-!
# Sequences of operations

Readers and writers after any operations on them, refused ones among them.  What a reader has handed
out is the front of its byte string, and what it has not is the rest; the ranges that a writer has
reserved lie side by side in the order in which they were reserved (`guarded_throughout`).

Each operation has a checked twin, made of sums, differences and slices of machine words.  A request
is compared with what remains before anything is added to a position, so none of them faults,
however large the request.
-/

namespace RomCast

open Cursor (Guarded)
open RomCast.Checked (slice add change sub_eq add_eq slice_eq slice_end_eq lift_ok)

/-! ## Readers -/

namespace Reader

/-- An operation of a reader. -/
inductive Operation : Type 1 where
  | read (α : Type) [Header α] [CanonicalHeader α]
  | bytes (n : Nat)
  | skip (n : Nat)
  | rest

namespace Operation

/-- What an operation answers. -/
def Answer : Operation → Type
  | read α => α
  | bytes _ => Bytes
  | skip _ => Unit
  | rest => Bytes

/-- How many bytes an operation needs. -/
def needs : Operation → Nat
  | read α => Header.size α
  | bytes n => n
  | skip n => n
  | rest => 0

/-- The operation as a step. -/
def perform : (o : Operation) → Action GuardError Reader o.Answer
  | read α => Reader.read α
  | bytes n => take n
  | skip n => Reader.skip n
  | rest => fun r => .ok r.rest r

/-- An answer is right about the bytes ahead. -/
def Answers (r : Reader) : (o : Operation) → o.Answer → Prop
  | read α => fun header : α => Header.encode header = r.rest.take (Header.size α)
  | bytes n => fun taken : Bytes => taken = r.rest.take n
  | skip _ => fun _ => True
  | rest => fun ahead : Bytes => ahead = r.rest

/-- The bytes that an operation has consumed: those of its answer, or those that it has moved the
reader over. -/
def taken (r r' : Reader) : (o : Operation) → o.Answer → Bytes
  | read α => fun header : α => Header.encode header
  | bytes _ => fun taken : Bytes => taken
  | skip _ => fun _ => r.bytes.slice r.position r'.position
  | rest => fun _ => []

/-- What an operation consumes; nothing if it is refused. -/
def consumes (o : Operation) (r : Reader) : Bytes :=
  match o.perform r with
  | .ok answer r' => o.taken r r' answer
  | .error _ _ => []

variable (o : Operation) (r : Reader)

theorem perform_guarded :
    Guarded o.needs r (fun answer r' => o.Answers r answer ∧ r'.bytes = r.bytes) (o.perform r) := by
  cases o with
  | read α => exact r.read_guarded α
  | bytes n => exact (r.take_guarded n).mono fun _ _ h => ⟨h.1, h.2.2⟩
  | skip n => exact (r.skip_guarded n).mono fun _ _ h => ⟨trivial, h⟩
  | rest => exact .ok (Nat.zero_le _) rfl rfl ⟨rfl, rfl⟩

theorem bytes_perform : (o.perform.state r).bytes = r.bytes := by
  have h := o.perform_guarded r
  unfold Action.state
  generalize o.perform r = result at h
  cases h with
  | ok _ _ _ after => exact after.2
  | error _ => rfl

/-- What is consumed lies between the places of the reader before and after. -/
theorem consumes_eq : o.consumes r = r.bytes.slice r.position (o.perform.state r).position := by
  have h := o.perform_guarded r
  unfold consumes Action.state
  generalize o.perform r = result at h
  cases h with
  | error _ => rw [Bytes.slice, Nat.sub_self, List.take_zero]
  | @ok answer r' _ _ hposition after =>
    have hmoved : r'.position = r.position + o.needs := hposition
    have hslice : r.bytes.slice r.position r'.position = r.rest.take o.needs := by
      rw [Bytes.slice, hmoved, Nat.add_sub_cancel_left]
      rfl
    cases o with
    | read α => exact after.1.trans hslice.symm
    | bytes n => exact after.1.trans hslice.symm
    | skip n => rfl
    | rest => exact hslice.symm

end Operation

/-- The reader after operations, one after the other. -/
def after (r : Reader) (operations : List Operation) : Reader :=
  operations.foldl (fun r o => o.perform.state r) r

/-- What operations have consumed, each in its turn. -/
def consumed (r : Reader) : List Operation → List Bytes
  | [] => []
  | o :: operations => o.consumes r :: consumed (o.perform.state r) operations

theorem bytes_after (r : Reader) (operations : List Operation) :
    (r.after operations).bytes = r.bytes := by
  induction operations generalizing r with
  | nil => rfl
  | cons o operations ih => exact (ih _).trans (o.bytes_perform r)

theorem within_after {n : Nat} {r : Reader} (h : Cursor.Within n r) (operations : List Operation) :
    Cursor.Within n (r.after operations) := by
  induction operations generalizing r with
  | nil => exact h
  | cons o operations ih => exact ih ((o.perform_guarded r).within h)

theorem position_le_after (r : Reader) (operations : List Operation) :
    r.position ≤ (r.after operations).position := by
  induction operations generalizing r with
  | nil => exact Nat.le_refl _
  | cons o operations ih => exact Nat.le_trans (o.perform_guarded r).position_le (ih _)

/-- What was consumed is what the reader has moved over. -/
theorem flatten_consumed (r : Reader) (operations : List Operation) :
    (r.consumed operations).flatten =
      r.bytes.slice r.position (r.after operations).position := by
  induction operations generalizing r with
  | nil =>
    rw [Bytes.slice, after, List.foldl_nil, Nat.sub_self, List.take_zero]
    rfl
  | cons o operations ih =>
    rw [consumed, List.flatten_cons, ih, o.consumes_eq, o.bytes_perform]
    exact Bytes.slice_append_slice _ (o.perform_guarded r).position_le (position_le_after _ _)

/-! ### On machine words -/

theorem read_apply {α : Type} [Header α] (r : Reader) :
    Reader.read α r = if Header.size α ≤ r.remaining then
        .ok (Header.decode (r.rest.take (Header.size α)))
          { r with position := r.position + Header.size α }
      else .error (r.refusal (Header.size α)) r := by
  rw [read, Action.bind_apply, take]
  by_cases hroom : Header.size α ≤ r.remaining
  · rw [if_pos hroom, if_pos hroom]
    rfl
  · rw [if_neg hroom, if_neg hroom]

theorem skip_apply (n : Nat) (r : Reader) :
    Reader.skip n r = if n ≤ r.remaining then .ok () { r with position := r.position + n }
      else .error (r.refusal n) r := by
  rw [skip, Action.bind_apply, take]
  by_cases hroom : n ≤ r.remaining
  · rw [if_pos hroom, if_pos hroom]
    rfl
  · rw [if_neg hroom, if_neg hroom]

namespace Checked

variable {α : Type} {r : Reader}

/-- Take the next `n` bytes; the reader behind them comes with them. -/
def take (n : Nat) (r : Reader) : Except (Trap GuardError) (Bytes × Reader) := do
  if (← remaining r) < n then .error (.failure ⟨r.position, n, ← remaining r⟩)
  else do
    let position ← add r.position n
    return (← slice r.bytes r.position position, { r with position })

/-- The bytes ahead. -/
def rest (r : Reader) : Except Fault Bytes := slice r.bytes r.position r.bytes.length

/-- A computation that hands back the reader, as a step of the reader. -/
def step (x : Reader → Except (Trap GuardError) (α × Reader)) : Action (Trap GuardError) Reader α :=
  fun r => match x r with
    | .ok (a, r') => .ok a r'
    | .error cause => .error cause r

/-- Such a step does what another one does that takes `n` bytes, if the computation does. -/
theorem step_eq {x : Reader → Except (Trap GuardError) (α × Reader)}
    {y : Action GuardError Reader α} {n : Nat} {a : α}
    (hx : x r = if n ≤ r.remaining then .ok (a, { r with position := r.position + n })
      else .error (.failure (r.refusal n)))
    (hy : y r = if n ≤ r.remaining then .ok a { r with position := r.position + n }
      else .error (r.refusal n) r) :
    step x r = y.mapError Trap.failure r := by
  rw [step, hx, Action.mapError, hy]
  by_cases hroom : n ≤ r.remaining
  · rw [if_pos hroom, if_pos hroom]
  · rw [if_neg hroom, if_neg hroom]

theorem remaining_eq (hr : r.position ≤ r.bytes.length) : remaining r = .ok r.remaining :=
  sub_eq hr

theorem take_eq (hr : r.position ≤ r.bytes.length) (hsize : r.bytes.length < 2 ^ 64) (n : Nat) :
    take n r = if n ≤ r.remaining then
        .ok (r.rest.take n, { r with position := r.position + n })
      else .error (.failure (r.refusal n)) := by
  simp only [take, remaining_eq hr, lift_ok, pure_bind]
  by_cases hroom : n ≤ r.remaining
  · have hwithin : n ≤ r.bytes.length - r.position := hroom
    have hadd : add r.position n = .ok (r.position + n) := add_eq (by omega)
    have hslice : slice r.bytes r.position (r.position + n) = .ok (r.rest.take n) := by
      rw [slice_eq (Nat.le_add_right _ _) (by omega), Bytes.slice, Nat.add_sub_cancel_left]
      rfl
    rw [if_pos hroom, if_neg (Nat.not_lt.mpr hroom), hadd, lift_ok, pure_bind, hslice]
    rfl
  · rw [if_neg hroom, if_pos (Nat.not_le.mp hroom)]
    rfl

theorem skip_eq_take (n : Nat) : skip n r = (take n r).map Prod.snd := by
  unfold skip take
  cases hremaining : remaining r with
  | error e => rfl
  | ok m =>
    simp only [lift_ok, pure_bind]
    split
    · rfl
    · cases hadd : add r.position n with
      | error e => rfl
      | ok p =>
        simp only [lift_ok, pure_bind]
        cases slice r.bytes r.position p <;> rfl

end Checked

namespace Operation

/-- The operation on machine words. -/
def checked : (o : Operation) → Action (Trap GuardError) Reader o.Answer
  | read α => Checked.step (Checked.read α)
  | bytes n => Checked.step (Checked.take n)
  | skip n => Checked.step fun r => do return ((), ← Checked.skip n r)
  | rest => Checked.step fun r => do return (← Checked.rest r, r)

/-- No operation faults. -/
theorem checked_eq (o : Operation) {r : Reader} (hr : r.position ≤ r.bytes.length)
    (hsize : r.bytes.length < 2 ^ 64) : o.checked r = o.perform.mapError Trap.failure r := by
  cases o with
  | read α => exact Checked.step_eq (Checked.read_eq hr hsize) r.read_apply
  | bytes n => exact Checked.step_eq (Checked.take_eq hr hsize n) rfl
  | skip n =>
    show Checked.step (fun r => do return ((), ← Checked.skip n r)) r =
      (Reader.skip n).mapError Trap.failure r
    refine Checked.step_eq ?_ (skip_apply n r)
    rw [Checked.skip_eq_take, Checked.take_eq hr hsize]
    by_cases hroom : n ≤ r.remaining
    · rw [if_pos hroom, if_pos hroom]
      rfl
    · rw [if_neg hroom, if_neg hroom]
      rfl
  | rest =>
    have hrest : Checked.rest r = .ok r.rest := slice_end_eq hr
    show Checked.step (fun r => do return (← Checked.rest r, r)) r = .ok r.rest r
    rw [Checked.step, hrest]
    rfl

end Operation

end Reader

/-! ## Writers -/

namespace Writer

/-- An operation of a writer.  What is written into the bytes ahead (`fillTail`) or anywhere in the
buffer (`patch`) is written by whoever was handed these bytes, and claims nothing. -/
inductive Operation : Type 1 where
  | put (α : Type) [Header α] (header : α)
  | putBytes (new : Bytes)
  | reserve (n : Nat)
  | advance (n : Nat)
  | fillTail (new : Bytes)
  | patch (start : Nat) (new : Bytes)

namespace Operation

/-- What an operation answers. -/
def Answer : Operation → Type
  | reserve _ => Nat
  | _ => Unit

/-- What an operation writes. -/
def new : Operation → Bytes
  | put _ header => Header.encode header
  | putBytes new => new
  | reserve _ => []
  | advance _ => []
  | fillTail new => new
  | patch _ new => new

/-- Where an operation writes. -/
def place (w : Writer) : Operation → Nat
  | patch start _ => start
  | _ => w.position

/-- How many bytes an operation needs. -/
def needs : Operation → Nat
  | put _ header => (Header.encode header).length
  | putBytes new => new.length
  | reserve n => n
  | advance n => n
  | fillTail _ => 0
  | patch _ _ => 0

/-- The operation as a step. -/
def perform : (o : Operation) → Action GuardError Writer o.Answer
  | put _ header => Writer.put header
  | putBytes new => Writer.putBytes new
  | reserve n => Writer.reserve n
  | advance n => Writer.advance n
  | fillTail new => Writer.fillTail new
  | patch start new => Writer.patch start new

/-- A reservation begins where the writer stands. -/
def Answers (w : Writer) : (o : Operation) → o.Answer → Prop
  | reserve _ => fun start : Nat => start = w.position
  | put _ _ | putBytes _ | advance _ | fillTail _ | patch _ _ => fun _ => True

/-- The range that an operation has reserved, from its start to its end. -/
def reserves (w : Writer) : Operation → List (Nat × Nat)
  | reserve n =>
      match Writer.reserve n w with
      | .ok start _ => [(start, start + n)]
      | .error _ _ => []
  | _ => []

variable (o : Operation) (w : Writer)

theorem perform_guarded :
    Guarded o.needs w (fun answer w' =>
        o.Answers w answer ∧ Bytes.Rewritten (o.place w) o.new w.buffer w'.buffer)
      (o.perform w) := by
  have hnothing {b : Bytes} (h : b = w.buffer) : Bytes.Rewritten w.position [] w.buffer b := by
    rw [h]
    exact Bytes.rewritten_nil _ _
  have hover {start : Nat} {new b : Bytes} (h : b = w.buffer.overwrite start new) :
      Bytes.Rewritten start new w.buffer b := by
    rw [h]
    exact Bytes.rewritten_overwrite _ _ _
  cases o with
  | put α header => exact (w.putBytes_guarded _).mono fun _ _ h => ⟨trivial, hover h⟩
  | putBytes new => exact (w.putBytes_guarded new).mono fun _ _ h => ⟨trivial, hover h⟩
  | reserve n => exact (w.reserve_guarded n).mono fun _ _ h => ⟨h.1, hnothing h.2⟩
  | advance n => exact (w.advance_guarded n).mono fun _ _ h => ⟨trivial, hnothing h⟩
  | fillTail new => exact (w.fillTail_guarded new).mono fun _ _ h => ⟨trivial, hover h⟩
  | patch start new => exact (w.patch_guarded start new).mono fun _ _ h => ⟨trivial, hover h⟩

/-- A reserved range is what the writer has moved over. -/
theorem eq_of_mem_reserves {range : Nat × Nat} (h : range ∈ o.reserves w) :
    range = (w.position, (o.perform.state w).position) := by
  cases o with
  | reserve n =>
    show range = (w.position, ((Writer.reserve n).state w).position)
    have hguarded := w.reserve_guarded n
    unfold reserves at h
    unfold Action.state
    dsimp only at h
    generalize Writer.reserve n w = result at h hguarded
    cases hguarded with
    | error _ => cases h
    | ok _ _ hposition after =>
      rw [List.mem_singleton.mp h, after.1]
      exact congrArg _ hposition.symm
  | put | putBytes | advance | fillTail | patch => cases h

end Operation

/-- The writer after operations, one after the other. -/
def after (w : Writer) (operations : List Operation) : Writer :=
  operations.foldl (fun w o => o.perform.state w) w

/-- The ranges that operations have reserved, in their order. -/
def reserved (w : Writer) : List Operation → List (Nat × Nat)
  | [] => []
  | o :: operations => o.reserves w ++ reserved (o.perform.state w) operations

theorem within_after {n : Nat} {w : Writer} (h : Cursor.Within n w) (operations : List Operation) :
    Cursor.Within n (w.after operations) := by
  induction operations generalizing w with
  | nil => exact h
  | cons o operations ih => exact ih ((o.perform_guarded w).within h)

theorem position_le_after (w : Writer) (operations : List Operation) :
    w.position ≤ (w.after operations).position := by
  induction operations generalizing w with
  | nil => exact Nat.le_refl _
  | cons o operations ih => exact Nat.le_trans (o.perform_guarded w).position_le (ih _)

/-- Whatever is reserved lies between the places of the writer before and after. -/
theorem between_of_mem_reserved {w : Writer} {operations : List Operation} {range : Nat × Nat}
    (h : range ∈ w.reserved operations) :
    w.position ≤ range.1 ∧ range.1 ≤ range.2 ∧ range.2 ≤ (w.after operations).position := by
  induction operations generalizing w with
  | nil => cases h
  | cons o operations ih =>
    have hstep : w.position ≤ (o.perform.state w).position := (o.perform_guarded w).position_le
    rcases List.mem_append.mp h with hnow | hlater
    · rw [o.eq_of_mem_reserves w hnow]
      exact ⟨Nat.le_refl _, hstep, position_le_after _ _⟩
    · obtain ⟨hstart, hrange, hstop⟩ := ih hlater
      exact ⟨Nat.le_trans hstep hstart, hrange, hstop⟩

/-- A range that was reserved earlier ends where a later one begins, or before. -/
theorem pairwise_reserved (w : Writer) (operations : List Operation) :
    (w.reserved operations).Pairwise fun earlier later => earlier.2 ≤ later.1 := by
  induction operations generalizing w with
  | nil => exact .nil
  | cons o operations ih =>
    refine List.pairwise_append.mpr ⟨?_, ih _, fun earlier hearlier later hlater => ?_⟩
    · cases o with
      | reserve n =>
        unfold Operation.reserves
        dsimp only
        cases Writer.reserve n w with
        | ok start _ => exact List.pairwise_singleton _ _
        | error _ _ => exact .nil
      | put | putBytes | advance | fillTail | patch => exact .nil
    · rw [o.eq_of_mem_reserves w hearlier]
      exact (between_of_mem_reserved hlater).1

/-! ### On machine words -/

namespace Checked

/-- Change the bytes ahead, without claiming them. -/
def fillTail (new : Bytes) : Action (Trap GuardError) Writer Unit :=
  change fun w => do
    let tail ← slice w.buffer w.position w.buffer.length
    return { w with buffer := w.buffer.overwrite w.position (tail.overwrite 0 new) }

end Checked

namespace Operation

/-- The operation on machine words.  For `patch` the whole buffer is handed out, and nothing is
computed. -/
def checked : (o : Operation) → Action (Trap GuardError) Writer o.Answer
  | put _ header => Checked.put header
  | putBytes new => Checked.putBytes new
  | reserve n => Checked.reserve n
  | advance n => Checked.advance n
  | fillTail new => Checked.fillTail new
  | patch start new => (Writer.patch start new).mapError Trap.failure

/-- No operation faults. -/
theorem checked_eq (o : Operation) {w : Writer} (hw : w.position ≤ w.buffer.length)
    (hsize : w.buffer.length < 2 ^ 64) : o.checked w = o.perform.mapError Trap.failure w := by
  have hwithin : Writer.Within w.buffer.length w.position w := ⟨rfl, Nat.le_refl _, hw⟩
  cases o with
  | put α header => exact (Checked.putBytes_follows hsize _).eq_of_never hwithin
  | putBytes new => exact (Checked.putBytes_follows hsize new).eq_of_never hwithin
  | reserve n => exact (Checked.reserve_follows hsize n).eq_of_never hwithin
  | advance n => exact (Checked.advance_follows hsize n).eq_of_never hwithin
  | fillTail new =>
    have htail : slice w.buffer w.position w.buffer.length = .ok w.tail := slice_end_eq hw
    have hfill : Checked.fillTail new w = .ok ()
        { w with buffer := w.buffer.overwrite w.position (w.tail.overwrite 0 new) } := by
      simp only [Checked.fillTail, change, Action.bind_apply, Action.get_apply, htail]
      rfl
    exact hfill.trans (by rw [Writer.tail, Bytes.overwrite_tail]; rfl)
  | patch start new => rfl

end Operation

end Writer

/-! ## Both -/

/-- After any operations, a reader has consumed the front of its byte string and a writer has
reserved ranges side by side.  Every further operation is guarded, and faults at nothing. -/
theorem Cursor.guarded_throughout (b : Bytes) :
    (∀ operations : List Reader.Operation,
      let start : Reader := { bytes := b }
      let r := start.after operations
      r.bytes = b ∧ r.position + r.remaining = b.length ∧
        (start.consumed operations).flatten = b.take r.position ∧ r.rest = b.drop r.position ∧
        ∀ o : Reader.Operation,
          Guarded o.needs r (fun answer r' => o.Answers r answer ∧ r'.bytes = b) (o.perform r) ∧
            (b.length < 2 ^ 64 → o.checked r = o.perform.mapError Trap.failure r)) ∧
      ∀ operations : List Writer.Operation,
        let start : Writer := { buffer := b }
        let w := start.after operations
        w.position + w.remaining = b.length ∧ w.buffer.length = b.length ∧
          ((start.reserved operations).Pairwise fun earlier later => earlier.2 ≤ later.1) ∧
          (∀ range ∈ start.reserved operations, range.1 ≤ range.2 ∧ range.2 ≤ w.position) ∧
          ∀ o : Writer.Operation,
            Guarded o.needs w (fun answer w' =>
                o.Answers w answer ∧ Bytes.Rewritten (o.place w) o.new w.buffer w'.buffer)
              (o.perform w) ∧
              (b.length < 2 ^ 64 → o.checked w = o.perform.mapError Trap.failure w) := by
  constructor
  · intro operations start r
    have hwithin : Within b.length r :=
      Reader.within_after (r := start) ⟨rfl, Nat.zero_le _⟩ operations
    have hbytes : r.bytes = b := Reader.bytes_after start operations
    refine ⟨hbytes, hwithin.position_add_remaining, start.flatten_consumed operations,
      congrArg (List.drop r.position) hbytes, fun o => ⟨?_, fun hsize => ?_⟩⟩
    · rw [← hbytes]
      exact o.perform_guarded r
    · rw [← hbytes] at hsize
      exact o.checked_eq (hbytes ▸ hwithin.position_le) hsize
  · intro operations start w
    have hwithin : Within b.length w :=
      Writer.within_after (w := start) ⟨rfl, Nat.zero_le _⟩ operations
    have hlength : w.buffer.length = b.length := hwithin.length_eq
    refine ⟨hwithin.position_add_remaining, hlength, start.pairwise_reserved operations,
      fun range hrange => (Writer.between_of_mem_reserved hrange).2,
      fun o => ⟨o.perform_guarded w, fun hsize => ?_⟩⟩
    exact o.checked_eq (hlength ▸ hwithin.position_le) (hlength ▸ hsize)

/-- A request that is too large by far is refused, in spite of what was read, written and refused
before it. -/
theorem Cursor.huge_requests_refused :
    let r : Reader := Reader.after ⟨Bytes.zeros 20, 0⟩
      [.read EthernetHeader, .read UdpHeader, .skip 2]
    let w : Writer := Writer.after ⟨Bytes.zeros 20, 0⟩
      [.putBytes (Bytes.zeros 14), .putBytes (Bytes.zeros 7), .reserve 2]
    (Reader.Operation.bytes (2 ^ 64 - 1)).checked r =
        .error (.failure ⟨16, 2 ^ 64 - 1, 4⟩) r ∧
      (Writer.Operation.reserve (2 ^ 64 - 1)).checked w =
        .error (.failure ⟨16, 2 ^ 64 - 1, 4⟩) w := by
  intro r w
  obtain ⟨hr, hw⟩ := guarded_throughout (Bytes.zeros 20)
  obtain ⟨-, -, -, -, hr⟩ := hr [.read EthernetHeader, .read UdpHeader, .skip 2]
  obtain ⟨-, -, -, -, hw⟩ := hw
    [.putBytes (Bytes.zeros 14), .putBytes (Bytes.zeros 7), .reserve 2]
  constructor
  · have h := (hr (.bytes (2 ^ 64 - 1))).2 (by decide)
    rw [h]
    rfl
  · have h := (hw (.reserve (2 ^ 64 - 1))).2 (by decide)
    rw [h]
    rfl

end RomCast
