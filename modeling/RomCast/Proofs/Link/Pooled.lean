import RomCast.Link.Raw
import RomCast.Proofs.Link.Memory

set_option autoImplicit false

/-!
# Links built on a pool

Links in memory and links over a raw socket differ in what happens on the wire, and keep their
transmit buffers the same way: what they do to a buffer is what their pool does, processing moves
some of the waiting frames on and cannot fail, and receiving leaves the buffers alone
(`PooledTransport`).  A link whose submission can fail is not of this kind: the buffer of a
submission that failed is lost.
-/

namespace RomCast

/-- A link that does to its buffers what its pool does. -/
class PooledTransport (L : Type) [Transport L] : Prop where
  pool_setPool : ∀ (p : TransmitPool) (l : L), Transport.pool (Transport.setPool p l) = p
  mac_setPool : ∀ (p : TransmitPool) (l : L),
    Transport.mac (Transport.setPool p l) = Transport.mac l
  alloc_eq : ∀ (length : Nat) (l : L),
    Transport.alloc length l = (TransmitPool.alloc length).on Transport.pool Transport.setPool l
  submit_eq : ∀ (d : Descriptor) (l : L),
    Transport.submit d l = .ok () (Transport.setPool ((Transport.pool l).submit d) l)
  takeAcked_eq : ∀ l : L, Transport.takeAcked l =
    ((Transport.pool l).takeAcked.1, Transport.setPool (Transport.pool l).takeAcked.2 l)
  /-- Some of the waiting frames, the oldest first, are sent. -/
  process_eq : ∀ l : L, ∃ n l', Transport.process l = .ok () l' ∧
    Transport.pool l' = TransmitPool.completeFront^[n] (Transport.pool l) ∧
    Transport.mac l' = Transport.mac l
  receive_eq : ∀ (l : L) (buffer : Bytes),
    Transport.pool (Transport.receive.state (l, buffer)).1 = Transport.pool l

namespace PooledTransport

variable {L : Type} [Transport L] [PooledTransport L] {l : L}

/-- Processing does not fail, and changes neither what is in the buffers nor whose they are. -/
theorem exists_process {held : List Nat} (h : (Transport.pool l).Accounts held) :
    ∃ l', Transport.process l = .ok () l' ∧ (Transport.pool l').Accounts held ∧
      (Transport.pool l').buffers = (Transport.pool l).buffers ∧
      Transport.mac l' = Transport.mac l := by
  obtain ⟨n, l', hprocess, hpool, hmac⟩ := process_eq l
  refine ⟨l', hprocess, ?_, ?_, hmac⟩
  · rw [hpool]
    exact TransmitPool.completeFronts_accounts n h
  · rw [hpool, TransmitPool.buffers_completeFronts]

theorem drainAcksFrom_accounts (n : Nat) (h : (Transport.pool l).Accounts []) :
    (Transport.pool (Transport.drainAcksFrom n l)).Accounts [] ∧
      Transport.mac (Transport.drainAcksFrom n l) = Transport.mac l := by
  induction n generalizing l with
  | zero => exact ⟨h, rfl⟩
  | succ n ih =>
    have htaken := TransmitPool.takeAcked_accounts h
    have hmac := mac_setPool (Transport.pool l).takeAcked.2 l
    unfold Transport.drainAcksFrom
    rw [takeAcked_eq]
    generalize (Transport.pool l).takeAcked = taken at htaken hmac
    obtain ⟨d?, p⟩ := taken
    split
    · cases d? with
      | none =>
        refine ⟨?_, hmac⟩
        show (Transport.pool (Transport.setPool p l)).Accounts []
        rw [pool_setPool]
        exact htaken
      | some d =>
        have hreleased : (Transport.pool (Transport.release (Transport.setPool p l) d)).Accounts
            [] := by
          rw [Transport.release, pool_setPool, pool_setPool]
          exact TransmitPool.release_accounts htaken
        obtain ⟨haccounts, hsame⟩ := ih hreleased
        refine ⟨haccounts, hsame.trans ?_⟩
        rw [Transport.release, mac_setPool]
        exact hmac
    · exact ⟨h, rfl⟩

/-- Collecting what was sent leaves all buffers accounted for. -/
theorem drainAcks_accounts (h : (Transport.pool l).Accounts []) :
    (Transport.pool (Transport.drainAcks l)).Accounts [] ∧
      Transport.mac (Transport.drainAcks l) = Transport.mac l :=
  drainAcksFrom_accounts _ h

end PooledTransport

namespace MemoryLink

theorem pool_sendFronts (n : Nat) (link : MemoryLink) :
    (link.sendFronts n).pool = TransmitPool.completeFront^[n] link.pool := by
  induction n generalizing link with
  | zero => rfl
  | succ n ih =>
    have hfront : link.sendFront.pool = link.pool.completeFront := by
      unfold sendFront TransmitPool.front? TransmitPool.completeFront
      cases hsubmitted : link.pool.submitted with
      | nil => simp
      | cons d rest => simp
    rw [sendFronts, ih, hfront, Function.iterate_succ_apply]

instance : PooledTransport MemoryLink where
  pool_setPool _ _ := rfl
  mac_setPool _ _ := rfl
  alloc_eq _ _ := rfl
  submit_eq _ _ := rfl
  takeAcked_eq _ := rfl
  process_eq link :=
    ⟨link.quota, link.sendFronts link.quota, rfl, pool_sendFronts _ link,
      (sendFronts_queued _ link).mac⟩
  receive_eq link buffer := by
    show (link.receiveInto buffer).2.1.pool = link.pool
    unfold receiveInto
    split <;> rfl

end MemoryLink

namespace RawLink

/-- Whatever the kernel answers, sending moves waiting frames on and touches nothing else of the
buffers. -/
theorem sendWaiting_pool (n : Nat) (link : RawLink) :
    ∃ m, (link.sendWaiting n).pool = TransmitPool.completeFront^[m] link.pool ∧
      (link.sendWaiting n).mac = link.mac := by
  induction n generalizing link with
  | zero => exact ⟨0, rfl, rfl⟩
  | succ n ih =>
    -- A frame that was sent or dropped is done with, and the others follow.
    have hnext : ∀ socket, ∃ m,
        (sendWaiting n { link with socket, pool := link.pool.completeFront }).pool =
          TransmitPool.completeFront^[m] link.pool ∧
        (sendWaiting n { link with socket, pool := link.pool.completeFront }).mac = link.mac := by
      intro socket
      obtain ⟨m, hpool, hmac⟩ := ih { link with socket, pool := link.pool.completeFront }
      exact ⟨m + 1, hpool, hmac⟩
    cases hfront : link.pool.front? with
    | none => exact ⟨0, by simp [sendWaiting, hfront], by simp [sendWaiting, hfront]⟩
    | some frame =>
      cases hsend : Socket.send frame link.socket with
      | ok _ socket =>
        simp only [sendWaiting, hfront, hsend]
        exact hnext socket
      | error cause socket =>
        simp only [sendWaiting, hfront, hsend]
        by_cases hblock : cause = .wouldBlock
        · rw [if_pos hblock]
          exact ⟨0, rfl, rfl⟩
        · rw [if_neg hblock]
          exact hnext socket

instance : PooledTransport RawLink where
  pool_setPool _ _ := rfl
  mac_setPool _ _ := rfl
  alloc_eq _ _ := rfl
  submit_eq _ _ := rfl
  takeAcked_eq _ := rfl
  process_eq link := by
    obtain ⟨m, hpool, hmac⟩ := sendWaiting_pool link.pool.submitted.length link
    exact ⟨m, _, rfl, hpool, hmac⟩
  receive_eq link buffer := by
    show (Action.state (fun s : RawLink × Bytes => Transport.receive s) (link, buffer)).1.pool =
      link.pool
    simp only [Action.state, Transport.receive]
    cases (Socket.receiveFrom buffer link.socket.arrivals).1 with
    | ok length => rfl
    | error cause => rfl

end RawLink

end RomCast
