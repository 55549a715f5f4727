import Mathlib.Logic.Function.Iterate
import RomCast.Link.Pool
import RomCast.Proofs.Bytes.Overwrite

set_option autoImplicit false

/-!
# Transmit buffers are accounted for

Every buffer of a pool is free, held by its writer, waiting, or sent, and only one of these
(`Accounts`).  Therefore writing into a held buffer leaves the frames that wait as they are, and a
pool that holds nothing back has a free buffer as soon as nothing waits and everything sent has been
collected.
-/

namespace RomCast.TransmitPool

/-- The slots that are not held by a writer: free, waiting and sent ones. -/
def slots (p : TransmitPool) : List Nat :=
  p.free ++ (p.submitted.map Descriptor.slot ++ p.acked.map Descriptor.slot)

/-- All buffers are accounted for when these are held by writers. -/
structure Accounts (p : TransmitPool) (held : List Nat) : Prop where
  slots : (held ++ p.slots).Perm (List.range p.buffers.length)
  lengths : ∀ buffer ∈ p.buffers, buffer.length = bufferSize

variable {p : TransmitPool}

theorem ofCount_accounts (count : Nat) : (ofCount count).Accounts [] := by
  constructor
  · simp [ofCount, TransmitPool.slots]
  · intro buffer hbuffer
    rw [ofCount, List.mem_replicate] at hbuffer
    rw [hbuffer.2, Bytes.length_zeros]

theorem Accounts.nodup {held : List Nat} (h : p.Accounts held) : (held ++ p.slots).Nodup :=
  h.slots.nodup_iff.mpr List.nodup_range

/-- A held slot is a slot of the pool, and nothing else has it. -/
theorem Accounts.held {slot : Nat} (h : p.Accounts [slot]) :
    slot < p.buffers.length ∧ slot ∉ p.slots := by
  constructor
  · exact List.mem_range.mp (h.slots.subset (by simp))
  · exact (List.nodup_cons.mp h.nodup).1

theorem Accounts.length_buffer {slot : Nat} (h : p.Accounts [slot]) :
    (p.buffer slot).length = bufferSize := by
  obtain ⟨hslot, -⟩ := h.held
  rw [buffer, List.getElem?_eq_getElem hslot, Option.getD_some]
  exact h.lengths _ (List.getElem_mem hslot)

/-! ## What is done with buffers -/

/-- A free buffer is taken, or there is none. -/
theorem alloc_accounts (h : p.Accounts []) {length : Nat} (hlength : length ≤ bufferSize) :
    (p.free = [] ∧ alloc length p = .error .exhausted p) ∨
      ∃ slot rest, p.free = slot :: rest ∧
        alloc length p = .ok ⟨slot, length⟩ { p with free := rest } ∧
        TransmitPool.Accounts { p with free := rest } [slot] := by
  have hfits : ¬ bufferSize < length := Nat.not_lt.mpr hlength
  cases hfree : p.free with
  | nil =>
    refine Or.inl ⟨rfl, ?_⟩
    simp [alloc, hfits, hfree]
  | cons slot rest =>
    refine Or.inr ⟨slot, rest, rfl, ?_, ?_, h.lengths⟩
    · simp [alloc, hfits, hfree]
    · have hslots := h.slots
      simpa [TransmitPool.slots, hfree] using hslots

theorem store_accounts {d : Descriptor} (h : p.Accounts [d.slot]) (bytes : Bytes) :
    (p.store d bytes).Accounts [d.slot] := by
  constructor
  · simpa [store, TransmitPool.slots] using h.slots
  · intro buffer hbuffer
    rcases List.mem_or_eq_of_mem_set hbuffer with hold | hnew
    · exact h.lengths buffer hold
    · rw [hnew, Bytes.length_overwrite]
      exact h.length_buffer

/-- Writing into a held buffer leaves the others. -/
theorem content_store_of_ne {d other : Descriptor} (h : other.slot ≠ d.slot) (bytes : Bytes) :
    (p.store d bytes).content other = p.content other := by
  simp [content, buffer, store, List.getElem?_set_ne (Ne.symm h)]

theorem waiting_store {d : Descriptor} (h : p.Accounts [d.slot]) (bytes : Bytes) :
    (p.store d bytes).waiting = p.waiting := by
  obtain ⟨-, hfresh⟩ := h.held
  show p.submitted.map (p.store d bytes).content = p.submitted.map p.content
  refine List.map_congr_left ?_
  intro other hother
  refine content_store_of_ne ?_ bytes
  intro heq
  refine hfresh ?_
  rw [← heq]
  simp only [TransmitPool.slots, List.mem_append, List.mem_map]
  exact Or.inr (Or.inl ⟨other, hother, rfl⟩)

/-- The front of what was written into a held buffer. -/
theorem content_store_truncate {d : Descriptor} (h : p.Accounts [d.slot]) {bytes : Bytes}
    {length : Nat} (hlength : length ≤ d.length) (hbytes : length ≤ bytes.length)
    (hd : d.length ≤ bufferSize) :
    (p.store d bytes).content (d.truncate length) = bytes.take length := by
  obtain ⟨hslot, -⟩ := h.held
  have hbuffer : (p.store d bytes).buffer d.slot =
      (p.buffer d.slot).overwrite 0 (bytes.take d.length) := by
    simp [buffer, store, List.getElem?_set_self hslot]
  have hfits : (bytes.take d.length).length ≤ (p.buffer d.slot).length := by
    rw [h.length_buffer, List.length_take]
    omega
  rw [content, Descriptor.truncate, hbuffer, Bytes.overwrite_zero_of_le hfits,
    Nat.min_eq_right hlength, List.take_append_of_le_length, List.take_take,
    Nat.min_eq_left hlength]
  show length ≤ (bytes.take d.length).length
  rw [List.length_take]
  omega

theorem submit_accounts {d : Descriptor} (h : p.Accounts [d.slot]) : (p.submit d).Accounts [] := by
  refine ⟨?_, h.lengths⟩
  refine List.Perm.trans ?_ h.slots
  simp only [TransmitPool.slots, submit, List.nil_append, List.map_append, List.map_cons,
    List.map_nil, List.append_assoc, List.cons_append]
  refine List.Perm.trans ?_ (@List.perm_middle _ _ p.free _)
  refine List.Perm.append_left _ ?_
  exact List.perm_middle

theorem waiting_submit (d : Descriptor) : (p.submit d).waiting = p.waiting ++ [p.content d] := by
  show (p.submitted ++ [d]).map p.content = _
  rw [List.map_append]
  rfl

/-- The oldest waiting frame is sent, and its buffer can be collected. -/
theorem completeFront_accounts {held : List Nat} (h : p.Accounts held) :
    p.completeFront.Accounts held := by
  cases hsubmitted : p.submitted with
  | nil =>
    have hsame : p.completeFront = p := by
      simp [completeFront, hsubmitted]
    rw [hsame]
    exact h
  | cons d rest =>
    have hnext : p.completeFront = { p with submitted := rest, acked := p.acked ++ [d] } := by
      simp [completeFront, hsubmitted]
    rw [hnext]
    refine ⟨?_, h.lengths⟩
    have hslots := h.slots
    simp only [TransmitPool.slots, hsubmitted, List.map_cons] at hslots
    refine List.Perm.trans ?_ hslots
    simp only [TransmitPool.slots, List.map_append, List.map_cons, List.map_nil]
    refine List.Perm.append_left _ (List.Perm.append_left _ ?_)
    rw [← List.append_assoc]
    exact (List.perm_append_singleton _ _).trans (by simp)

@[simp] theorem buffers_completeFront (p : TransmitPool) :
    p.completeFront.buffers = p.buffers := by
  unfold completeFront
  split <;> rfl

theorem completeFronts_accounts {held : List Nat} (n : Nat) (h : p.Accounts held) :
    (completeFront^[n] p).Accounts held := by
  induction n generalizing p with
  | zero => exact h
  | succ n ih => exact ih (completeFront_accounts h)

@[simp] theorem buffers_completeFronts (n : Nat) (p : TransmitPool) :
    (completeFront^[n] p).buffers = p.buffers := by
  induction n generalizing p with
  | zero => rfl
  | succ n ih => rw [Function.iterate_succ_apply, ih, buffers_completeFront]

/-- What is collected is in the collector's hands. -/
theorem takeAcked_accounts (h : p.Accounts []) :
    p.takeAcked.2.Accounts (p.takeAcked.1.map Descriptor.slot).toList := by
  cases hacked : p.acked with
  | nil =>
    have hnone : p.takeAcked = (none, p) := by simp [takeAcked, hacked]
    rw [hnone]
    exact h
  | cons d rest =>
    have hsome : p.takeAcked = (some d, { p with acked := rest }) := by simp [takeAcked, hacked]
    rw [hsome]
    refine ⟨?_, h.lengths⟩
    have hslots := h.slots
    simp only [TransmitPool.slots, hacked, List.nil_append, List.map_cons] at hslots
    refine List.Perm.trans ?_ hslots
    show (d.slot :: (p.free ++ (p.submitted.map Descriptor.slot ++ rest.map Descriptor.slot))).Perm _
    rw [← List.append_assoc, ← List.append_assoc]
    exact List.perm_middle.symm

@[simp] theorem buffers_takeAcked (p : TransmitPool) : p.takeAcked.2.buffers = p.buffers := by
  unfold takeAcked
  split <;> rfl

/-- A held buffer that is given back is free again. -/
theorem release_accounts {d : Descriptor} (h : p.Accounts [d.slot]) :
    (p.release d).Accounts [] :=
  ⟨h.slots, h.lengths⟩

/-- Everything sent is collected and free again. -/
def collected (p : TransmitPool) : TransmitPool :=
  { p with free := (p.acked.map Descriptor.slot).reverse ++ p.free, acked := [] }

theorem collected_accounts (h : p.Accounts []) : p.collected.Accounts [] := by
  refine ⟨?_, h.lengths⟩
  refine List.Perm.trans ?_ h.slots
  simp only [TransmitPool.slots, collected, List.nil_append, List.map_nil, List.append_nil]
  rw [List.append_assoc]
  refine List.Perm.trans ((List.reverse_perm _).append_right _) ?_
  refine List.perm_append_comm.trans ?_
  rw [List.append_assoc]

end RomCast.TransmitPool
