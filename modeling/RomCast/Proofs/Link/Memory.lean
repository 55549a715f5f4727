import RomCast.Link.Memory
import RomCast.Proofs.Link.Pool

set_option autoImplicit false

/-!
# The way of a frame through a link in memory

A frame waits in a buffer, then it is on the wire.  What has not been taken off the wire, followed
by what waits, is the link's pipeline: sending moves frames along it, and submitting a frame puts it
behind the others.
-/

namespace RomCast.MemoryLink

/-- What the link has sent and will send, the oldest first. -/
def pipeline (link : MemoryLink) : List Bytes := link.outbound ++ link.pool.waiting

/-- A link after frames were queued, and whatever was sent meanwhile. -/
structure Queued (link link' : MemoryLink) (frames : List Bytes) : Prop where
  pipeline : link'.pipeline = link.pipeline ++ frames
  inbound : link'.inbound = link.inbound
  batch : link'.batch = link.batch
  mac : link'.mac = link.mac
  buffers : link'.pool.buffers.length = link.pool.buffers.length

theorem queued_refl (link : MemoryLink) : Queued link link [] :=
  ⟨(List.append_nil _).symm, rfl, rfl, rfl, rfl⟩

theorem Queued.trans {link link' link'' : MemoryLink} {frames frames' : List Bytes}
    (h : Queued link link' frames) (h' : Queued link' link'' frames') :
    Queued link link'' (frames ++ frames') := by
  constructor
  · rw [h'.pipeline, h.pipeline, List.append_assoc]
  · rw [h'.inbound, h.inbound]
  · rw [h'.batch, h.batch]
  · rw [h'.mac, h.mac]
  · rw [h'.buffers, h.buffers]

/-! ## Sending -/

theorem sendFront_queued (link : MemoryLink) : Queued link link.sendFront [] := by
  obtain ⟨mac, pool, outbound, inbound, batch⟩ := link
  cases hsubmitted : pool.submitted with
  | nil =>
    have hsame : sendFront ⟨mac, pool, outbound, inbound, batch⟩ =
        ⟨mac, pool, outbound, inbound, batch⟩ := by
      simp [sendFront, TransmitPool.front?, hsubmitted]
    rw [hsame]
    exact queued_refl _
  | cons d rest =>
    have hsent : sendFront ⟨mac, pool, outbound, inbound, batch⟩ =
        ⟨mac, pool.completeFront, outbound ++ [pool.content d], inbound, batch⟩ := by
      simp [sendFront, TransmitPool.front?, hsubmitted]
    have hrest : pool.completeFront.waiting = rest.map pool.content := by
      simp [TransmitPool.completeFront, TransmitPool.waiting, hsubmitted,
        TransmitPool.content, TransmitPool.buffer]
    rw [hsent]
    constructor
    · have hwaiting : pool.waiting = pool.content d :: rest.map pool.content := by
        simp [TransmitPool.waiting, hsubmitted]
      simp only [pipeline, hrest, hwaiting, List.append_nil, List.append_assoc,
        List.singleton_append]
    · rfl
    · rfl
    · rfl
    · simp [TransmitPool.completeFront, hsubmitted]

theorem sendFront_accounts {link : MemoryLink} (h : link.pool.Accounts []) :
    link.sendFront.pool.Accounts [] := by
  unfold sendFront
  cases link.pool.front? with
  | none => exact h
  | some frame => exact TransmitPool.completeFront_accounts h

theorem submitted_sendFront (link : MemoryLink) :
    link.sendFront.pool.submitted = link.pool.submitted.drop 1 := by
  unfold sendFront TransmitPool.front? TransmitPool.completeFront
  cases hsubmitted : link.pool.submitted with
  | nil => simp [hsubmitted]
  | cons d rest => simp

theorem sendFronts_queued (n : Nat) (link : MemoryLink) : Queued link (sendFronts n link) [] := by
  induction n generalizing link with
  | zero => exact queued_refl link
  | succ n ih => exact (sendFront_queued link).trans (ih link.sendFront)

theorem sendFronts_accounts (n : Nat) {link : MemoryLink} (h : link.pool.Accounts []) :
    (sendFronts n link).pool.Accounts [] := by
  induction n generalizing link with
  | zero => exact h
  | succ n ih => exact ih (sendFront_accounts h)

theorem submitted_sendFronts (n : Nat) (link : MemoryLink) :
    (sendFronts n link).pool.submitted = link.pool.submitted.drop n := by
  induction n generalizing link with
  | zero => rfl
  | succ n ih => rw [sendFronts, ih, submitted_sendFront, List.drop_drop, Nat.add_comm]

/-! ## Collecting -/

theorem drainAcks_eq (link : MemoryLink) :
    Transport.drainAcks link = { link with pool := link.pool.collected } := by
  have hfrom : ∀ n (link : MemoryLink), link.pool.acked.length = n →
      Transport.drainAcksFrom n link = { link with pool := link.pool.collected } := by
    intro n
    induction n with
    | zero =>
      intro link hlength
      have hnil : link.pool.acked = [] := List.eq_nil_of_length_eq_zero hlength
      obtain ⟨mac, ⟨buffers, free, submitted, acked⟩, outbound, inbound, batch⟩ := link
      subst hnil
      rfl
    | succ n ih =>
      intro link hlength
      obtain ⟨mac, ⟨buffers, free, submitted, acked⟩, outbound, inbound, batch⟩ := link
      cases acked with
      | nil => cases hlength
      | cons d rest =>
        have hrest : rest.length = n := Nat.succ.inj hlength
        have hnext := ih ⟨mac, ⟨buffers, d.slot :: free, submitted, rest⟩, outbound, inbound,
          batch⟩ hrest
        have hstep : Transport.drainAcksFrom (n + 1)
            (⟨mac, ⟨buffers, free, submitted, d :: rest⟩, outbound, inbound, batch⟩ : MemoryLink) =
              Transport.drainAcksFrom n
                (⟨mac, ⟨buffers, d.slot :: free, submitted, rest⟩, outbound, inbound, batch⟩ :
                  MemoryLink) := rfl
        rw [hstep, hnext]
        simp [TransmitPool.collected]
  exact hfrom _ link rfl

theorem drainAcks_queued (link : MemoryLink) : Queued link (Transport.drainAcks link) [] := by
  rw [drainAcks_eq]
  exact ⟨(List.append_nil _).symm, rfl, rfl, rfl, rfl⟩

/-! ## Progress -/

/-- A link that has buffers and does not stand still. -/
structure Flows (link : MemoryLink) : Prop where
  buffers : 0 < link.pool.buffers.length
  batch : link.batch ≠ some 0

theorem Flows.congr {link link' : MemoryLink} {frames : List Bytes} (h : link.Flows)
    (hqueued : Queued link link' frames) : link'.Flows := by
  constructor
  · rw [hqueued.buffers]
    exact h.buffers
  · rw [hqueued.batch]
    exact h.batch

/-- A link that does not stand still sends at least one of the frames that wait. -/
theorem Flows.quota_pos {link : MemoryLink} (h : link.Flows) (hsome : link.pool.submitted ≠ []) :
    0 < link.quota := by
  have hlength : 0 < link.pool.submitted.length := List.length_pos_iff.mpr hsome
  unfold quota
  cases hbatch : link.batch with
  | none => exact hlength
  | some n =>
    have hn : n ≠ 0 := by
      intro hzero
      exact h.batch (by rw [hbatch, hzero])
    show 0 < min n link.pool.submitted.length
    omega

end RomCast.MemoryLink
