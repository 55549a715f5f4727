import RomCast.Proofs.Link.Pooled
import RomCast.Proofs.Link.Related

set_option autoImplicit false

/-!
# Links that keep a record

A recorded link does what the link below it does, and writes down what is asked of it: the frames
that are submitted, as they are at that moment, and after every call the transmit buffers and the
one that was handed out.  Nothing that an endpoint does depends on the record, so a recorded run is
a run of the link below with its record beside it.

On a link that is built on a pool, all buffers are accounted for after every single call
(`custody`); what else is true of the link and its record is kept with it (`Tally`).
-/

namespace RomCast

open RomCast.Action (Agree)

/-- A link, and what was asked of it. -/
structure Recorded (L : Type) where
  link : L
  /-- The frames that were submitted, as they were then, the oldest first. -/
  frames : List Bytes := []
  /-- What each call left: the buffer that it handed out, if any, and the transmit buffers. -/
  calls : List (Option Descriptor × TransmitPool) := []

namespace Recorded

variable {L : Type} [Transport L]

/-- The record after a call that handed this buffer out and left this link. -/
def note (handed : Option Descriptor) (link : L) (r : Recorded L) : Recorded L :=
  { r with link, calls := r.calls ++ [(handed, Transport.pool link)] }

/-- The record after a frame was submitted. -/
def noteFrame (frame : Bytes) (r : Recorded L) : Recorded L :=
  { r with frames := r.frames ++ [frame] }

instance : Transport (Recorded L) where
  mac r := Transport.mac r.link
  pool r := Transport.pool r.link
  setPool p r := r.note none (Transport.setPool p r.link)
  pending r := Transport.pending r.link
  ready r := Transport.ready r.link
  alloc length := fun r =>
    match Transport.alloc length r.link with
    | .ok d link => .ok d (r.note (some d) link)
    | .error e link => .error e (r.note none link)
  submit d := fun r =>
    match Transport.submit d r.link with
    | .ok _ link => .ok () ((r.note none link).noteFrame (Transport.content r.link d))
    | .error e link => .error e (r.note none link)
  takeAcked r :=
    let (d?, link) := Transport.takeAcked r.link
    (d?, r.note d? link)
  process := fun r =>
    match Transport.process r.link with
    | .ok _ link => .ok () (r.note none link)
    | .error e link => .error e (r.note none link)
  receive := fun (r, buffer) =>
    match Transport.receive (r.link, buffer) with
    | .ok length (link, buffer) => .ok length (r.note none link, buffer)
    | .error e (link, buffer) => .error e (r.note none link, buffer)

/-! ## What is recorded of an operation -/

theorem alloc_eq (length : Nat) (r : Recorded L) :
    Transport.alloc length r = (match Transport.alloc length r.link with
      | .ok d link => EStateM.Result.ok d (r.note (some d) link)
      | .error e link => .error e (r.note none link)) := rfl

theorem submit_eq (d : Descriptor) (r : Recorded L) :
    Transport.submit d r = (match Transport.submit d r.link with
      | .ok _ link =>
          EStateM.Result.ok () ((r.note none link).noteFrame (Transport.content r.link d))
      | .error e link => .error e (r.note none link)) := rfl

theorem process_eq (r : Recorded L) :
    Transport.process r = (match Transport.process r.link with
      | .ok _ link => EStateM.Result.ok () (r.note none link)
      | .error e link => .error e (r.note none link)) := rfl

theorem receive_eq (r : Recorded L) (buffer : Bytes) :
    Transport.receive (r, buffer) = (match Transport.receive (r.link, buffer) with
      | .ok length (link, buffer) => EStateM.Result.ok length (r.note none link, buffer)
      | .error e (link, buffer) => .error e (r.note none link, buffer)) := rfl

end Recorded

/-- All of the `count` buffers are accounted for after a call: one of them at most is outside of the
pool, and the one that was handed out is; so it is neither free nor waiting nor sent. -/
def TransmitPool.Whole (count : Nat) (call : Option Descriptor × TransmitPool) : Prop :=
  ∃ held : List Nat, held.length ≤ 1 ∧ (∀ d ∈ call.1, d.slot ∈ held) ∧ call.2.Accounts held ∧
    call.2.buffers.length = count

/-- What is true of a link, the number of submitted frames, and the frames themselves, as long as
the link's operations are used on buffers that one holds. -/
structure Tally (L : Type) [Transport L] where
  Holds : Nat → L → List Bytes → Prop
  /-- Buffers change hands, and the waiting frames stay as they are. -/
  setPool : ∀ {n : Nat} {l : L} {frames : List Bytes} {p : TransmitPool}, Holds n l frames →
    p.waiting = (Transport.pool l).waiting → Holds n (Transport.setPool p l) frames
  submit : ∀ {n : Nat} {l : L} {frames : List Bytes} {p : TransmitPool} {frame : Bytes},
    Holds n l frames → p.waiting = (Transport.pool l).waiting ++ [frame] →
    Holds (n + 1) (Transport.setPool p l) (frames ++ [frame])
  process : ∀ {n : Nat} {l l' : L} {frames : List Bytes}, Holds n l frames →
    Transport.process l = .ok () l' → Holds n l' frames
  receive : ∀ {n : Nat} {l : L} {frames : List Bytes}, Holds n l frames → ∀ buffer : Bytes,
    Holds n (Transport.receive.state (l, buffer)).1 frames

/-- Nothing in particular. -/
def Tally.trivial (L : Type) [Transport L] : Tally L where
  Holds _ _ _ := True
  setPool _ _ := True.intro
  submit _ _ := True.intro
  process _ _ := True.intro
  receive _ _ := True.intro

namespace Recorded

variable {L : Type} [Transport L]

/-- A link and its record, all of whose `count` buffers are accounted for, now and after every
call. -/
structure Custody (T : Tally L) (count : Nat) (held : Option Descriptor) (n : Nat) (l : L)
    (r : Recorded L) : Prop where
  link_eq : r.link = l
  accounts : (Transport.pool l).Accounts (held.map Descriptor.slot).toList
  length_eq : (Transport.pool l).buffers.length = count
  calls : ∀ call ∈ r.calls, TransmitPool.Whole count call
  tally : T.Holds n l r.frames

variable {T : Tally L} {count n : Nat} {l : L} {r : Recorded L} {held : Option Descriptor}

/-- Something happens to the link from outside, and not to its buffers. -/
theorem Custody.outside (h : Custody T count held n l r) {T' : Tally L} {l' : L}
    (hpool : Transport.pool l' = Transport.pool l) (htally : T'.Holds n l' r.frames) :
    Custody T' count held n l' { r with link := l' } := by
  refine ⟨rfl, ?_, ?_, h.calls, htally⟩
  · rw [hpool]
    exact h.accounts
  · rw [hpool]
    exact h.length_eq

/-- One more call, that leaves the buffers accounted for. -/
theorem Custody.note (h : Custody T count held n l r) {held' handed : Option Descriptor} {l' : L}
    (haccounts : (Transport.pool l').Accounts (held'.map Descriptor.slot).toList)
    (hlength : (Transport.pool l').buffers.length = (Transport.pool l).buffers.length)
    (hhanded : ∀ d ∈ handed, held' = some d) (htally : T.Holds n l' r.frames) :
    Custody T count held' n l' (r.note handed l') := by
  refine ⟨rfl, haccounts, hlength.trans h.length_eq, ?_, htally⟩
  intro call hcall
  rcases List.mem_append.mp hcall with hbefore | hnow
  · exact h.calls call hbefore
  · rw [List.mem_singleton.mp hnow]
    refine ⟨(held'.map Descriptor.slot).toList, ?_, ?_, haccounts, hlength.trans h.length_eq⟩
    · cases held' <;> simp
    · intro d hd
      rw [hhanded d hd]
      simp

variable [PooledTransport L]

/-- One more call, that leaves other transmit buffers with the same frames waiting. -/
theorem Custody.noteSetPool (h : Custody T count held n l r) {held' handed : Option Descriptor}
    {p : TransmitPool} (haccounts : p.Accounts (held'.map Descriptor.slot).toList)
    (hlength : p.buffers.length = (Transport.pool l).buffers.length)
    (hwaiting : p.waiting = (Transport.pool l).waiting) (hhanded : ∀ d ∈ handed, held' = some d) :
    Custody T count held' n (Transport.setPool p l)
      (r.note handed (Transport.setPool p l)) := by
  have hpool : Transport.pool (Transport.setPool p l) = p := PooledTransport.pool_setPool p l
  refine h.note ?_ ?_ hhanded (T.setPool h.tally hwaiting)
  · rw [hpool]
    exact haccounts
  · rw [hpool]
    exact hlength

theorem Custody.alloc (h : Custody T count none n l r) (length : Nat) :
    Agree (fun d => Custody T count (some d) n) (Custody T count none n)
      (Transport.alloc length l) (Transport.alloc length r) := by
  obtain rfl : r.link = l := h.link_eq
  show Agree _ _ (Transport.alloc length r.link)
    (match Transport.alloc length r.link with
      | .ok d link => .ok d (r.note (some d) link)
      | .error e link => .error e (r.note none link))
  rw [PooledTransport.alloc_eq, Action.on]
  by_cases hlength : length ≤ bufferSize
  · rcases TransmitPool.alloc_accounts h.accounts hlength with
      ⟨-, halloc⟩ | ⟨slot, rest, -, halloc, haccounts⟩
    · rw [halloc]
      exact .error (h.noteSetPool h.accounts rfl rfl (by simp))
    · rw [halloc]
      refine .ok (h.noteSetPool haccounts rfl rfl ?_)
      intro d hd
      exact hd
  · have htooLarge : TransmitPool.alloc length (Transport.pool r.link) =
        .error (.tooLarge length) (Transport.pool r.link) := by
      simp [TransmitPool.alloc, Nat.lt_of_not_le hlength]
    rw [htooLarge]
    exact .error (h.noteSetPool h.accounts rfl rfl (by simp))

theorem Custody.collect (h : Custody T count none n l r) :
    (Transport.takeAcked r).1 = (Transport.takeAcked l).1 ∧
      Custody T count (Transport.takeAcked l).1 n (Transport.takeAcked l).2
        (Transport.takeAcked r).2 := by
  obtain rfl : r.link = l := h.link_eq
  refine ⟨rfl, ?_⟩
  show Custody T count (Transport.takeAcked r.link).1 n (Transport.takeAcked r.link).2
    (r.note (Transport.takeAcked r.link).1 (Transport.takeAcked r.link).2)
  rw [PooledTransport.takeAcked_eq]
  have hbuffers := TransmitPool.buffers_takeAcked (Transport.pool r.link)
  refine h.noteSetPool (TransmitPool.takeAcked_accounts h.accounts) ?_ ?_ ?_
  · rw [hbuffers]
  · unfold TransmitPool.takeAcked
    split <;> rfl
  · intro d hd
    exact hd

theorem Custody.store {d : Descriptor} (h : Custody T count (some d) n l r) (bytes : Bytes) :
    Custody T count (some d) n (Transport.store l d bytes) (Transport.store r d bytes) := by
  obtain rfl : r.link = l := h.link_eq
  refine h.noteSetPool (TransmitPool.store_accounts h.accounts bytes) ?_
    (TransmitPool.waiting_store h.accounts bytes) (by simp)
  exact List.length_set

theorem Custody.submit {d : Descriptor} (h : Custody T count (some d) n l r) :
    ∃ l' r', Transport.submit d l = .ok () l' ∧ Transport.submit d r = .ok () r' ∧
      Custody T count none (n + 1) l' r' := by
  obtain rfl : r.link = l := h.link_eq
  let p : TransmitPool := (Transport.pool r.link).submit d
  have hsubmit : Transport.submit d r.link = .ok () (Transport.setPool p r.link) :=
    PooledTransport.submit_eq d r.link
  have hrecord : Transport.submit d r = .ok () ((r.note none (Transport.setPool p r.link)).noteFrame
      (Transport.content r.link d)) := by
    show (match Transport.submit d r.link with
      | .ok _ link =>
          EStateM.Result.ok () ((r.note none link).noteFrame (Transport.content r.link d))
      | .error e link => .error e (r.note none link)) = _
    rw [hsubmit]
  have hpool : Transport.pool (Transport.setPool p r.link) = p := PooledTransport.pool_setPool p _
  have haccounts : p.Accounts [] := TransmitPool.submit_accounts h.accounts
  refine ⟨_, _, hsubmit, hrecord, rfl, ?_, ?_, ?_, ?_⟩
  · rw [hpool]
    exact haccounts
  · rw [hpool]
    exact h.length_eq
  · intro call hcall
    rcases List.mem_append.mp hcall with hbefore | hnow
    · exact h.calls call hbefore
    · rw [List.mem_singleton.mp hnow, hpool]
      exact ⟨[], Nat.zero_le 1, by simp, haccounts, h.length_eq⟩
  · exact T.submit h.tally (TransmitPool.waiting_submit d)

theorem Custody.process (h : Custody T count held n l r) :
    ∃ l' r', Transport.process l = .ok () l' ∧ Transport.process r = .ok () r' ∧
      Custody T count held n l' r' := by
  obtain rfl : r.link = l := h.link_eq
  obtain ⟨l', hprocess, haccounts, hbuffers, -⟩ := PooledTransport.exists_process h.accounts
  have hrecord : Transport.process r = .ok () (r.note none l') := by
    show (match Transport.process r.link with
      | .ok _ link => EStateM.Result.ok () (r.note none link)
      | .error e link => .error e (r.note none link)) = _
    rw [hprocess]
  exact ⟨l', r.note none l', hprocess, hrecord,
    h.note haccounts (by rw [hbuffers]) (by simp) (T.process h.tally hprocess)⟩

theorem Custody.receive (h : Custody T count none n l r) (buffer : Bytes) :
    Agree (fun _ s t => t.2 = s.2 ∧ Custody T count none n s.1 t.1)
      (fun s t => t.2 = s.2 ∧ Custody T count none n s.1 t.1)
      (Transport.receive (l, buffer)) (Transport.receive (r, buffer)) := by
  obtain rfl : r.link = l := h.link_eq
  have hpool := PooledTransport.receive_eq r.link buffer
  have htally := T.receive h.tally buffer
  show Agree _ _ (Transport.receive (r.link, buffer))
    (match Transport.receive (r.link, buffer) with
      | .ok length (link, buffer) => .ok length (r.note none link, buffer)
      | .error e (link, buffer) => .error e (r.note none link, buffer))
  cases hreceive : Transport.receive (r.link, buffer) with
  | ok length s =>
    rw [Action.state_of_ok hreceive] at hpool htally
    exact .ok ⟨rfl, h.note (hpool ▸ h.accounts) (by rw [hpool]) (by simp) htally⟩
  | error e s =>
    rw [Action.state_of_error hreceive] at hpool htally
    exact .error ⟨rfl, h.note (hpool ▸ h.accounts) (by rw [hpool]) (by simp) htally⟩

/-- Links that are built on a pool, and the same links with a record. -/
def custody (T : Tally L) (count : Nat) : LinkRelation L (Recorded L) where
  Related := Custody T count
  pool_eq h := by rw [← h.link_eq]; rfl
  mac_eq h := by rw [← h.link_eq]; rfl
  pending_eq h := by rw [← h.link_eq]; rfl
  ready_eq h := by rw [← h.link_eq]; rfl
  alloc h length := h.alloc length
  collect h := h.collect
  store h bytes := h.store bytes
  truncate h length := ⟨h.link_eq, h.accounts, h.length_eq, h.calls, h.tally⟩
  release h := by
    have hlink := h.link_eq
    subst hlink
    exact h.noteSetPool (TransmitPool.release_accounts h.accounts) rfl rfl (by simp)
  submit h := h.submit
  process h := h.process
  receive h buffer := h.receive buffer

end Recorded

end RomCast
