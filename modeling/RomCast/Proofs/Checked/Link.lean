import RomCast.Proofs.Checked.Step
import RomCast.Proofs.Link.Pooled

set_option autoImplicit false

/-!
# Checked links

A descriptor indexes a buffer and slices it, a buffer that is given back must not be free already,
and what is received is copied into the receive buffer.  In a pool whose buffers are accounted for
(`Sound`) none of these faults.
-/

namespace RomCast

open RomCast.Checked

namespace TransmitPool

/-- A pool whose buffers are accounted for, fewer than a number of 64 bits can count, and whose
waiting descriptors stand for no more bytes than a buffer has. -/
structure Sound (p : TransmitPool) (held : List Nat) : Prop where
  accounts : p.Accounts held
  count_lt : p.buffers.length < 2 ^ 64
  lengths : ∀ d ∈ p.submitted, d.length ≤ bufferSize

variable {p : TransmitPool} {held : List Nat} {d : Descriptor}

theorem ofCount_sound (count : UInt64) : (ofCount count.toNat).Sound [] := by
  refine ⟨ofCount_accounts _, ?_, fun d hd => nomatch hd⟩
  rw [ofCount, List.length_replicate]
  exact count.toNat_lt

/-- A slot that is held, free, waiting or sent is a slot of the pool. -/
theorem Accounts.lt_of_mem (h : p.Accounts held) {slot : Nat} (hslot : slot ∈ held ++ p.slots) :
    slot < p.buffers.length :=
  List.mem_range.mp (h.slots.subset hslot)

theorem Sound.length_submitted_lt (h : p.Sound held) : p.submitted.length < 2 ^ 64 := by
  have hslots := h.accounts.slots.length_eq
  have hcount := h.count_lt
  simp only [TransmitPool.slots, List.length_append, List.length_map, List.length_range] at hslots
  omega

theorem Sound.collected (h : p.Sound []) : p.collected.Sound [] :=
  ⟨collected_accounts h.accounts, h.count_lt, h.lengths⟩

theorem Sound.store (h : p.Sound [d.slot]) (bytes : Bytes) : (p.store d bytes).Sound [d.slot] := by
  refine ⟨store_accounts h.accounts bytes, ?_, h.lengths⟩
  rw [TransmitPool.store, List.length_set]
  exact h.count_lt

theorem Sound.submit (h : p.Sound [d.slot]) (hd : d.length ≤ bufferSize) :
    (p.submit d).Sound [] := by
  refine ⟨submit_accounts h.accounts, h.count_lt, fun other hother => ?_⟩
  rcases List.mem_append.mp hother with hold | hnew
  · exact h.lengths other hold
  · rw [List.mem_singleton.mp hnew]
    exact hd

theorem Sound.release (h : p.Sound [d.slot]) : (p.release d).Sound [] :=
  ⟨release_accounts h.accounts, h.count_lt, h.lengths⟩

namespace Checked

/-- The whole buffer in a slot. -/
def buffer (p : TransmitPool) (slot : Nat) : Except Fault Bytes :=
  match p.buffers[slot]? with
  | some buffer => .ok buffer
  | none => .error (.noSuchSlot slot p.buffers.length)

/-- The bytes that a descriptor stands for. -/
def content (p : TransmitPool) (d : Descriptor) : Except Fault Bytes := do
  slice (← buffer p d.slot) 0 d.length

/-- Copy a frame over the bytes that a descriptor stands for. -/
def store (p : TransmitPool) (d : Descriptor) (frame : Bytes) : Except Fault TransmitPool := do
  let place ← content p d
  return p.store d (← copy place 0 place.length frame)

/-- Give a buffer back that is not free. -/
def release (p : TransmitPool) (d : Descriptor) : Except Fault TransmitPool := do
  assert (d.slot ∉ p.free)
  return p.release d

theorem content_eq (h : p.Accounts held) (hslot : d.slot ∈ held ++ p.slots)
    (hd : d.length ≤ bufferSize) : content p d = .ok (p.content d) := by
  have hlt := h.lt_of_mem hslot
  have hget : p.buffers[d.slot]? = some p.buffers[d.slot] := List.getElem?_eq_getElem hlt
  have hlength := h.lengths _ (List.getElem_mem hlt)
  simp only [content, buffer, hget, ok_bind, TransmitPool.content, TransmitPool.buffer,
    Option.getD_some]
  exact slice_zero_eq (hlength ▸ hd)

theorem store_eq (h : p.Sound [d.slot]) (hd : d.length ≤ bufferSize) {frame : Bytes}
    (hframe : frame.length = d.length) : store p d frame = .ok (p.store d frame) := by
  have hplace : (p.content d).length = d.length := by
    rw [TransmitPool.content, List.length_take, h.accounts.length_buffer, Nat.min_eq_left hd]
  have hcopy : copy (p.content d) 0 (p.content d).length frame = .ok frame := by
    rw [copy_eq (by omega) (Nat.le_refl _), Bytes.overwrite_zero_of_le (by omega),
      List.drop_of_length_le (by omega), List.append_nil]
  simp only [store, content_eq h.accounts (by simp) hd, ok_bind, hcopy]
  rfl

theorem release_eq (h : p.Accounts [d.slot]) : release p d = .ok (p.release d) := by
  have hfree : d.slot ∉ p.free := fun hmem => h.held.2 (List.mem_append_left _ hmem)
  rw [release, assert_eq hfree]
  rfl

end Checked

end TransmitPool

namespace MemoryLink.Checked

/-- Send waiting frames until none waits or as many as one call sends are `done`. -/
def sendWaiting (link : MemoryLink) (done : Nat) : Except Fault MemoryLink :=
  match _h : link.pool.submitted with
  | [] => .ok link
  | d :: _ => do
      let frame ← TransmitPool.Checked.content link.pool d
      if link.batch = some done then .ok link
      else do
        let done ← add done 1
        sendWaiting { link with
          outbound := link.outbound ++ [frame], pool := link.pool.completeFront } done
termination_by link.pool.submitted.length
decreasing_by simp [TransmitPool.completeFront, *]

/-- Move submitted frames onto the wire. -/
def process : Action (Trap LinkError) MemoryLink Unit := do
  set (← sendWaiting (← get) 0)

/-- Collect and release sent buffers, at most `n` of them, until none is handed out. -/
def drainAcksFrom : Nat → MemoryLink → Except Fault MemoryLink
  | 0, link => .ok link
  | n + 1, link =>
      if Transport.ackAvailable link then
        match Transport.takeAcked link with
        | (some d, link) => do
            let pool ← TransmitPool.Checked.release link.pool d
            drainAcksFrom n { link with pool }
        | (none, link) => .ok link
      else .ok link

/-- Collect and release every sent buffer. -/
def drainAcks (link : MemoryLink) : Except Fault MemoryLink :=
  drainAcksFrom link.pool.acked.length link

/-- Copy the oldest inbound frame into a buffer, cut to the buffer's length. -/
def receiveInto (link : MemoryLink) (buffer : Bytes) :
    Except Fault (Option Nat × MemoryLink × Bytes) :=
  match link.inbound with
  | [] => .ok (none, link, buffer)
  | frame :: rest => do
      let length := min frame.length buffer.length
      let buffer ← copy buffer 0 length (← slice frame 0 length)
      return (some length, { link with inbound := rest }, buffer)

/-- Copy the next inbound frame into a buffer. -/
def receive : Action (Trap LinkError) (MemoryLink × Bytes) (Option Nat) := do
  let (link, buffer) ← get
  let (length, state) ← receiveInto link buffer
  set state
  return length

/-! ## Sending -/

/-- How many frames are still sent when some are done. -/
def left (link : MemoryLink) (done : Nat) : Nat :=
  match link.batch with
  | none => link.pool.submitted.length
  | some n => min (n - done) link.pool.submitted.length

theorem sendFront_sound {link : MemoryLink} {held : List Nat} (h : link.pool.Sound held) :
    link.sendFront.pool.Sound held := by
  have hpool := pool_sendFronts 1 link
  have haccounts := TransmitPool.completeFronts_accounts 1 h.accounts
  refine ⟨hpool ▸ haccounts, ?_, fun d hd => ?_⟩
  · rw [show link.sendFront.pool = _ from hpool, TransmitPool.buffers_completeFronts]
    exact h.count_lt
  · rw [submitted_sendFront] at hd
    exact h.lengths d (List.mem_of_mem_drop hd)

theorem sendFronts_sound (n : Nat) {link : MemoryLink} {held : List Nat}
    (h : link.pool.Sound held) : (link.sendFronts n).pool.Sound held := by
  induction n generalizing link with
  | zero => exact h
  | succ n ih => exact ih (sendFront_sound h)

/-- One frame is sent, and so many are left. -/
theorem left_eq_succ {link : MemoryLink} {done : Nat} (hsome : link.pool.submitted ≠ [])
    (hbatch : ∀ m, link.batch = some m → done < m) :
    left link done = left link.sendFront (done + 1) + 1 := by
  have hlength := List.length_pos_iff.mpr hsome
  have hsent := congrArg List.length (submitted_sendFront link)
  rw [List.length_drop] at hsent
  rw [left, left, (sendFront_queued link).batch, hsent]
  cases hlimit : link.batch with
  | none =>
    show link.pool.submitted.length = link.pool.submitted.length - 1 + 1
    omega
  | some m =>
    have hm := hbatch m hlimit
    show min (m - done) link.pool.submitted.length =
      min (m - (done + 1)) (link.pool.submitted.length - 1) + 1
    omega

/-- Sending one frame after the other is sending as many as one call sends. -/
theorem sendWaiting_eq (n : Nat) {link : MemoryLink} (hn : link.pool.submitted.length = n)
    (hsound : link.pool.Sound []) {done : Nat} (hdone : done + n < 2 ^ 64)
    (hbatch : ∀ m, link.batch = some m → done ≤ m) :
    sendWaiting link done = .ok (link.sendFronts (left link done)) := by
  induction n generalizing link done with
  | zero =>
    have hnil : link.pool.submitted = [] := List.eq_nil_of_length_eq_zero hn
    have hleft : left link done = 0 := by
      rw [left, hnil, List.length_nil]
      cases link.batch with
      | none => rfl
      | some m => exact Nat.min_zero _
    rw [sendWaiting, hleft]
    split
    · rfl
    · rename_i hcons
      rw [hnil] at hcons
      cases hcons
  | succ n ih =>
    obtain ⟨d, rest, hcons⟩ := List.exists_cons_of_length_eq_add_one hn
    have hmem : d ∈ link.pool.submitted := by rw [hcons]; exact List.mem_cons_self
    have hcontent : TransmitPool.Checked.content link.pool d = .ok (link.pool.content d) := by
      refine TransmitPool.Checked.content_eq hsound.accounts ?_ (hsound.lengths d hmem)
      simp only [TransmitPool.slots, List.nil_append, List.mem_append, List.mem_map]
      exact Or.inr (Or.inl ⟨d, hmem, rfl⟩)
    have hfront : link.sendFront = { link with
        outbound := link.outbound ++ [link.pool.content d], pool := link.pool.completeFront } := by
      simp [sendFront, TransmitPool.front?, hcons]
    rw [sendWaiting]
    split
    · rename_i hnil
      rw [hcons] at hnil
      cases hnil
    · rename_i other others hother
      rw [hcons] at hother
      cases hother
      rw [hcontent, ok_bind, ← hfront]
      by_cases hlimit : link.batch = some done
      · have hleft : left link done = 0 := by
          rw [left, hlimit]
          show min (done - done) _ = 0
          rw [Nat.sub_self, Nat.zero_min]
        rw [if_pos hlimit, hleft]
        rfl
      · have hbelow : ∀ m, link.batch = some m → done < m := by
          intro m hm
          refine Nat.lt_of_le_of_ne (hbatch m hm) ?_
          rintro rfl
          exact hlimit hm
        have hadd : add done 1 = .ok (done + 1) := add_eq (by omega)
        have hnext : link.sendFront.pool.submitted.length = n := by
          rw [submitted_sendFront, List.length_drop, hn]
          rfl
        rw [if_neg hlimit, hadd, ok_bind, left_eq_succ (by simp [hcons]) hbelow]
        refine ih hnext (sendFront_sound hsound) (by omega) ?_
        rw [(sendFront_queued link).batch]
        exact hbelow

/-- A link whose transmit buffers are sound, none of them held by a writer. -/
abbrev Idle (link : MemoryLink) : Prop := link.pool.Sound []

theorem process_follows :
    Follows never Idle process (Transport.process : Action LinkError MemoryLink Unit)
      (fun _ => Idle) Idle := by
  refine ⟨fun link hlink => ?_, fun _ _ hnever => hnever.elim⟩
  have hleft : left link 0 = link.quota := by
    rw [left, quota]
    cases link.batch <;> rfl
  have hlt := hlink.length_submitted_lt
  have hsend : sendWaiting link 0 = .ok (link.sendFronts (left link 0)) :=
    sendWaiting_eq _ rfl hlink (by omega) fun m _ => Nat.zero_le m
  have hstrict : process link = .ok () (link.sendFronts link.quota) := by
    simp only [process, Action.bind_apply, Action.get_apply, hsend, hleft, lift_ok_action,
      Action.pure_apply, Action.set_apply]
  rw [hstrict]
  exact .ok (sendFronts_sound _ hlink)

/-! ## Collecting -/

theorem drainAcksFrom_eq (n : Nat) {link : MemoryLink} (h : link.pool.Accounts []) :
    drainAcksFrom n link = .ok (Transport.drainAcksFrom n link) := by
  induction n generalizing link with
  | zero => rfl
  | succ n ih =>
    have htaken := TransmitPool.takeAcked_accounts h
    have htake : Transport.takeAcked link =
        (link.pool.takeAcked.1, { link with pool := link.pool.takeAcked.2 }) := rfl
    rw [drainAcksFrom, Transport.drainAcksFrom, htake]
    generalize link.pool.takeAcked = taken at htaken
    obtain ⟨d?, pool⟩ := taken
    split
    · cases d? with
      | none => rfl
      | some d =>
        simp only [TransmitPool.Checked.release_eq htaken, ok_bind]
        exact ih (TransmitPool.release_accounts htaken)
    · rfl

theorem drainAcks_eq {link : MemoryLink} (h : link.pool.Accounts []) :
    drainAcks link = .ok (Transport.drainAcks link) :=
  drainAcksFrom_eq _ h

theorem drainAcks_sound {link : MemoryLink} (h : Idle link) : Idle (Transport.drainAcks link) := by
  rw [MemoryLink.drainAcks_eq]
  exact h.collected

/-! ## Receiving -/

/-- A link beside the receive buffer. -/
structure Receiving (s : MemoryLink × Bytes) : Prop where
  link : Idle s.1
  buffer : s.2.length = bufferSize

theorem receiveInto_eq (link : MemoryLink) (buffer : Bytes) :
    receiveInto link buffer = .ok (link.receiveInto buffer) := by
  unfold receiveInto MemoryLink.receiveInto
  cases link.inbound with
  | nil => rfl
  | cons frame rest =>
    have hslice : slice frame 0 (min frame.length buffer.length) =
        .ok (frame.take (min frame.length buffer.length)) := slice_zero_eq (Nat.min_le_left ..)
    have hlength : (frame.take (min frame.length buffer.length)).length =
        min frame.length buffer.length := by
      rw [List.length_take, Nat.min_eq_left (Nat.min_le_left ..)]
    have hcopy : copy buffer 0 (min frame.length buffer.length)
        (frame.take (min frame.length buffer.length)) = .ok (buffer.overwrite 0 frame) := by
      rw [copy_eq (by rw [hlength, Nat.zero_add]) (Nat.min_le_right ..),
        Bytes.overwrite_zero_take_min]
    simp only [hslice, hcopy, ok_bind]
    rfl

theorem receive_follows :
    Follows never Receiving receive
      (Transport.receive : Action LinkError (MemoryLink × Bytes) (Option Nat))
      (fun length s => Receiving s ∧ ∀ n, length = some n → n ≤ bufferSize) Receiving := by
  refine ⟨fun s hs => ?_, fun _ _ hnever => hnever.elim⟩
  obtain ⟨link, buffer⟩ := s
  have hplain : (Transport.receive : Action LinkError (MemoryLink × Bytes) (Option Nat))
      (link, buffer) = .ok (link.receiveInto buffer).1 (link.receiveInto buffer).2 := rfl
  have hstrict : receive (link, buffer) =
      .ok (link.receiveInto buffer).1 (link.receiveInto buffer).2 := by
    simp only [receive, Action.bind_apply, Action.get_apply, receiveInto_eq, lift_ok_action,
      Action.pure_apply, Action.set_apply]
  rw [hstrict, hplain]
  refine .ok ?_
  unfold MemoryLink.receiveInto
  cases link.inbound with
  | nil => exact ⟨hs, fun n hn => nomatch hn⟩
  | cons frame rest =>
    refine ⟨⟨hs.link, (Bytes.length_overwrite ..).trans hs.buffer⟩, fun n hn => ?_⟩
    cases hn
    exact Nat.le_trans (Nat.min_le_right ..) (Nat.le_of_eq hs.buffer)

end MemoryLink.Checked

end RomCast
