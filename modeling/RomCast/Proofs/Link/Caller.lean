import Mathlib.Data.List.Perm.Basic
import RomCast.Proofs.Link.Pooled

set_option autoImplicit false

/-!
# Callers of a link

A caller of a link holds descriptors: allocation and collection hand them out, submission and
release take them back, and no descriptor is ever in two hands.  What the caller may do is therefore
said in terms of the descriptors in its hands (`Call`), and whatever it does, in any order, every
buffer of the link stays accounted for (`Owns.perform`), and the frames that wait are the ones that
were submitted and not yet sent, as they were when they were submitted (`Owns.waiting_perform`).
-/

namespace RomCast

namespace TransmitPool

variable {p : TransmitPool} {held : List Nat}

theorem Accounts.perm {held' : List Nat} (h : p.Accounts held) (hperm : held'.Perm held) :
    p.Accounts held' :=
  ⟨(hperm.append_right _).trans h.slots, h.lengths⟩

/-- A held slot is a slot of the pool, and neither free nor waiting nor sent. -/
theorem Accounts.of_mem {slot : Nat} (h : p.Accounts held) (hslot : slot ∈ held) :
    slot < p.buffers.length ∧ slot ∉ p.slots := by
  refine ⟨List.mem_range.mp (h.slots.subset (List.mem_append_left _ hslot)), fun hother => ?_⟩
  exact (List.nodup_append.mp h.nodup).2.2 slot hslot slot hother rfl

theorem Accounts.length_buffer_of_mem {slot : Nat} (h : p.Accounts held) (hslot : slot ∈ held) :
    (p.buffer slot).length = bufferSize := by
  obtain ⟨hbound, -⟩ := h.of_mem hslot
  rw [buffer, List.getElem?_eq_getElem hbound, Option.getD_some]
  exact h.lengths _ (List.getElem_mem hbound)

/-- A buffer that was allocated is in the allocator's hands. -/
theorem Accounts.take_free {slot : Nat} {rest : List Nat} (h : p.Accounts held)
    (hfree : p.free = slot :: rest) :
    TransmitPool.Accounts { p with free := rest } (held ++ [slot]) := by
  refine ⟨?_, h.lengths⟩
  have hslots := h.slots
  simpa [TransmitPool.slots, hfree] using hslots

/-- Writing into a held buffer changes neither whose the buffers are nor what waits. -/
theorem Accounts.store_held {d : Descriptor} (h : p.Accounts held) (hd : d.slot ∈ held)
    (bytes : Bytes) :
    (p.store d bytes).Accounts held ∧ (p.store d bytes).waiting = p.waiting := by
  refine ⟨⟨?_, ?_⟩, ?_⟩
  · simpa [store, TransmitPool.slots] using h.slots
  · intro buffer hbuffer
    rcases List.mem_or_eq_of_mem_set hbuffer with hold | hnew
    · exact h.lengths buffer hold
    · rw [hnew, Bytes.length_overwrite]
      exact h.length_buffer_of_mem hd
  · refine List.map_congr_left fun other hother => content_store_of_ne (fun heq => ?_) bytes
    refine (h.of_mem hd).2 ?_
    rw [← heq]
    exact List.mem_append_right _ (List.mem_append_left _ (List.mem_map_of_mem hother))

/-- A submitted buffer is no longer in its writer's hands. -/
theorem Accounts.submit_held {d : Descriptor} (h : p.Accounts (d.slot :: held)) :
    (p.submit d).Accounts held := by
  have hslots : (p.submit d).slots.Perm (d.slot :: p.slots) := by
    simp only [TransmitPool.slots, submit, List.map_append, List.map_cons, List.map_nil,
      List.append_assoc, List.singleton_append]
    exact (List.perm_middle.append_left p.free).trans List.perm_middle
  exact ⟨(hslots.append_left held).trans (List.perm_middle.trans h.slots), h.lengths⟩

/-- Nor is one that was given back. -/
theorem Accounts.release_held {d : Descriptor} (h : p.Accounts (d.slot :: held)) :
    (p.release d).Accounts held :=
  ⟨List.perm_middle.trans h.slots, h.lengths⟩

/-- What was collected is in the collector's hands. -/
theorem Accounts.takeAcked_held (h : p.Accounts held) :
    p.takeAcked.2.Accounts (held ++ (p.takeAcked.1.map Descriptor.slot).toList) := by
  cases hacked : p.acked with
  | nil =>
    have hnone : p.takeAcked = (none, p) := by simp [takeAcked, hacked]
    rw [hnone]
    simpa using h
  | cons d rest =>
    have hsome : p.takeAcked = (some d, { p with acked := rest }) := by simp [takeAcked, hacked]
    rw [hsome]
    refine ⟨List.Perm.trans ?_ h.slots, h.lengths⟩
    have hmiddle := @List.perm_middle _ d.slot (p.free ++ p.submitted.map Descriptor.slot)
      (rest.map Descriptor.slot)
    simpa [TransmitPool.slots, hacked] using hmiddle.symm.append_left held

/-- Collecting leaves alone what waits. -/
theorem waiting_takeAcked (p : TransmitPool) : p.takeAcked.2.waiting = p.waiting := by
  unfold takeAcked
  split
  · rfl
  · rfl

end TransmitPool

/-- What a caller can ask of a link.  A number stands for the descriptor at that place in the
caller's hands. -/
inductive Call where
  | mac
  | ready
  | alloc (length : Nat)
  /-- Read the bytes that a descriptor stands for. -/
  | content (i : Nat)
  /-- Change them. -/
  | store (i : Nat) (bytes : Bytes)
  /-- Let fewer of them count. -/
  | truncate (i : Nat) (length : Nat)
  | submit (i : Nat)
  | ackAvailable
  | takeAcked
  | release (i : Nat)
  | process
  /-- Receive into a buffer that holds these bytes. -/
  | receive (buffer : Bytes)
  deriving DecidableEq, Inhabited

/-- The room for a frame that a call to receive gives. -/
def Call.room? : Call → Option Nat
  | .receive buffer => some buffer.length
  | _ => none

/-- What a caller learns from a call. -/
inductive Answer where
  | mac (m : Mac)
  | flag (b : Bool)
  | bytes (b : Option Bytes)
  | descriptor (d : Except LinkError (Option Descriptor))
  | done (outcome : Except LinkError Unit)
  /-- The length that was returned, and the bytes of the buffer up to there. -/
  | received (outcome : Except LinkError (Option (Nat × Bytes)))

/-- The answer to a call to receive. -/
def Answer.reception? : Answer → Option (Except LinkError (Option (Nat × Bytes)))
  | .received outcome => some outcome
  | _ => none

/-- A link and the descriptors in its caller's hands. -/
structure Caller (L : Type) where
  link : L
  held : List Descriptor := []

namespace Caller

variable {L : Type} [Transport L]

/-- A call and its answer.  A descriptor that is not in the caller's hands cannot be used. -/
def perform (c : Caller L) : Call → Answer × Caller L
  | .mac => (.mac (Transport.mac c.link), c)
  | .ready => (.flag (Transport.ready c.link), c)
  | .alloc length =>
      match Transport.alloc length c.link with
      | .ok d link => (.descriptor (.ok (some d)), ⟨link, c.held ++ [d]⟩)
      | .error e link => (.descriptor (.error e), { c with link })
  | .content i => (.bytes (c.held[i]?.map (Transport.content c.link)), c)
  | .store i bytes =>
      match c.held[i]? with
      | none => (.done (.ok ()), c)
      | some d => (.done (.ok ()), { c with link := Transport.store c.link d bytes })
  | .truncate i length =>
      (.done (.ok ()), { c with held := c.held.modify i fun d => d.truncate length })
  | .submit i =>
      match c.held[i]? with
      | none => (.done (.ok ()), c)
      | some d =>
          let x : Action LinkError L Unit := Transport.submit d
          (.done (x.result c.link), ⟨x.state c.link, c.held.eraseIdx i⟩)
  | .ackAvailable => (.flag (Transport.ackAvailable c.link), c)
  | .takeAcked =>
      let (d, link) := Transport.takeAcked c.link
      (.descriptor (.ok d), ⟨link, c.held ++ d.toList⟩)
  | .release i =>
      match c.held[i]? with
      | none => (.done (.ok ()), c)
      | some d => (.done (.ok ()), ⟨Transport.release c.link d, c.held.eraseIdx i⟩)
  | .process =>
      let x : Action LinkError L Unit := Transport.process
      (.done (x.result c.link), { c with link := x.state c.link })
  | .receive buffer =>
      match Transport.receive (c.link, buffer) with
      | .ok length? (link, filled) =>
          (.received (.ok (length?.map fun length => (length, filled.take length))),
            { c with link })
      | .error e (link, _) => (.received (.error e), { c with link })

/-- The frame that a call submits, as it is then. -/
def submission (c : Caller L) : Call → List Bytes
  | .submit i => (c.held[i]?.map (Transport.content c.link)).toList
  | _ => []

/-- What the caller has in its hands is its own: every buffer of the link is accounted for. -/
def Owns (c : Caller L) : Prop := (Transport.pool c.link).Accounts (c.held.map Descriptor.slot)

/-! ## What a call does to the buffers -/

/-- What any call but the one to send may do to the buffers and to the slots in the caller's hands,
with the frames that it submits. -/
inductive Effect (p : TransmitPool) (held : List Nat) :
    TransmitPool → List Nat → List Bytes → Prop where
  | nothing : Effect p held p held []
  | allocated {slot : Nat} {rest : List Nat} (free : p.free = slot :: rest) :
      Effect p held { p with free := rest } (held ++ [slot]) []
  | stored {d : Descriptor} (mem : d.slot ∈ held) (bytes : Bytes) :
      Effect p held (p.store d bytes) held []
  | submitted {d : Descriptor} {held' : List Nat} (gone : (d.slot :: held').Perm held) :
      Effect p held (p.submit d) held' [p.content d]
  | collected : Effect p held p.takeAcked.2
      (held ++ (p.takeAcked.1.map Descriptor.slot).toList) []
  | released {d : Descriptor} {held' : List Nat} (gone : (d.slot :: held').Perm held) :
      Effect p held (p.release d) held' []

theorem Effect.accounts {p p' : TransmitPool} {held held' : List Nat} {frames : List Bytes}
    (h : Effect p held p' held' frames) (haccounts : p.Accounts held) : p'.Accounts held' := by
  cases h with
  | nothing => exact haccounts
  | allocated free => exact haccounts.take_free free
  | stored mem bytes => exact (haccounts.store_held mem bytes).1
  | submitted gone => exact (haccounts.perm gone).submit_held
  | collected => exact haccounts.takeAcked_held
  | released gone => exact (haccounts.perm gone).release_held

/-- What waits is what waited, and behind it what was submitted. -/
theorem Effect.waiting {p p' : TransmitPool} {held held' : List Nat} {frames : List Bytes}
    (h : Effect p held p' held' frames) (haccounts : p.Accounts held) :
    p'.waiting = p.waiting ++ frames := by
  cases h with
  | nothing => exact (List.append_nil _).symm
  | allocated free => exact (List.append_nil _).symm
  | stored mem bytes => rw [(haccounts.store_held mem bytes).2, List.append_nil]
  | submitted gone => exact TransmitPool.waiting_submit _
  | collected => rw [TransmitPool.waiting_takeAcked, List.append_nil]
  | released gone => exact (List.append_nil _).symm

theorem perm_eraseIdx {held : List Descriptor} {i : Nat} {d : Descriptor} (h : held[i]? = some d) :
    (d.slot :: (held.eraseIdx i).map Descriptor.slot).Perm (held.map Descriptor.slot) := by
  obtain ⟨hi, rfl⟩ := List.getElem?_eq_some_iff.mp h
  exact (List.getElem_cons_eraseIdx_perm hi).map Descriptor.slot

theorem map_slot_truncate (held : List Descriptor) (i length : Nat) :
    (held.modify i fun d => d.truncate length).map Descriptor.slot =
      held.map Descriptor.slot := by
  refine List.ext_getElem? fun k => ?_
  rw [List.getElem?_map, List.getElem?_map, List.getElem?_modify]
  cases held[k]? with
  | none => rfl
  | some d =>
    by_cases hik : i = k
    · simp [hik, Descriptor.truncate]
    · simp [hik]

variable [PooledTransport L] {c : Caller L}

open PooledTransport (pool_setPool alloc_eq submit_eq takeAcked_eq process_eq receive_eq)

theorem perform_effect (c : Caller L) {call : Call} (hcall : call ≠ .process) :
    Effect (Transport.pool c.link) (c.held.map Descriptor.slot)
      (Transport.pool (c.perform call).2.link) ((c.perform call).2.held.map Descriptor.slot)
      (c.submission call) := by
  cases call with
  | process => exact absurd rfl hcall
  | mac => exact .nothing
  | ready => exact .nothing
  | content i => exact .nothing
  | ackAvailable => exact .nothing
  | truncate i length =>
    simp only [perform, submission, map_slot_truncate]
    exact .nothing
  | alloc length =>
    simp only [perform, submission, alloc_eq, Action.on, TransmitPool.alloc]
    by_cases hlarge : bufferSize < length
    · simp only [hlarge, if_true, pool_setPool]
      exact .nothing
    · cases hfree : (Transport.pool c.link).free with
      | nil =>
        simp only [hlarge, if_false, pool_setPool]
        exact .nothing
      | cons slot rest =>
        simp only [hlarge, if_false, pool_setPool, List.map_append]
        exact .allocated hfree
  | store i bytes =>
    cases hd : c.held[i]? with
    | none =>
      simp only [perform, submission, hd]
      exact .nothing
    | some d =>
      simp only [perform, submission, hd, Transport.store, pool_setPool]
      exact .stored (List.mem_map_of_mem (List.mem_of_getElem? hd)) bytes
  | submit i =>
    cases hd : c.held[i]? with
    | none =>
      simp only [perform, submission, hd]
      exact .nothing
    | some d =>
      simp only [perform, submission, hd, Action.state, submit_eq, pool_setPool]
      exact .submitted (perm_eraseIdx hd)
  | takeAcked =>
    simp only [perform, submission, takeAcked_eq, pool_setPool, List.map_append,
      ← Option.toList_map]
    exact .collected
  | release i =>
    cases hd : c.held[i]? with
    | none =>
      simp only [perform, submission, hd]
      exact .nothing
    | some d =>
      simp only [perform, submission, hd, Transport.release, pool_setPool]
      exact .released (perm_eraseIdx hd)
  | receive buffer =>
    have hpool := receive_eq c.link buffer
    cases hreceive : Transport.receive (c.link, buffer) with
    | ok length? s =>
      rw [Action.state_of_ok hreceive] at hpool
      simp only [perform, submission, hreceive, hpool]
      exact .nothing
    | error e s =>
      rw [Action.state_of_error hreceive] at hpool
      simp only [perform, submission, hreceive, hpool]
      exact .nothing

/-- Whatever a caller does, every buffer stays accounted for. -/
theorem Owns.perform (h : c.Owns) (call : Call) : (c.perform call).2.Owns := by
  by_cases hcall : call = .process
  · obtain ⟨n, link, hprocess, hpool, -⟩ := process_eq c.link
    rw [hcall]
    simp only [Caller.perform, Owns, Action.state, hprocess, hpool]
    exact TransmitPool.completeFronts_accounts n h
  · exact (perform_effect c hcall).accounts h

/-- Unless the link is made to send, what waits is what waited, and behind it what is submitted. -/
theorem Owns.waiting_perform (h : c.Owns) {call : Call} (hcall : call ≠ .process) :
    (Transport.pool (c.perform call).2.link).waiting =
      (Transport.pool c.link).waiting ++ c.submission call :=
  (perform_effect c hcall).waiting h

/-! ## What a call does to the rest of a link -/

omit [PooledTransport L] in
theorem reception?_perform (c : Caller L) {call : Call} (hreceive : call.room? = none) :
    (c.perform call).1.reception? = none := by
  cases call with
  | receive buffer => cases hreceive
  | mac => rfl
  | ready => rfl
  | content i => rfl
  | ackAvailable => rfl
  | truncate i length => rfl
  | takeAcked => rfl
  | process => rfl
  | alloc length =>
    simp only [perform]
    split
    · rfl
    · rfl
  | store i bytes =>
    simp only [perform]
    split
    · rfl
    · rfl
  | submit i =>
    simp only [perform]
    split
    · rfl
    · rfl
  | release i =>
    simp only [perform]
    split
    · rfl
    · rfl

/-- Unless the link sends or receives, nothing but its buffers changes. -/
theorem link_perform (c : Caller L) {call : Call} (hprocess : call ≠ .process)
    (hreceive : call.room? = none) :
    (c.perform call).2.link = c.link ∨
      ∃ p, (c.perform call).2.link = Transport.setPool p c.link := by
  cases call with
  | process => exact absurd rfl hprocess
  | receive buffer => cases hreceive
  | mac => exact Or.inl rfl
  | ready => exact Or.inl rfl
  | content i => exact Or.inl rfl
  | ackAvailable => exact Or.inl rfl
  | truncate i length => exact Or.inl rfl
  | alloc length =>
    simp only [perform, alloc_eq, Action.on]
    cases TransmitPool.alloc length (Transport.pool c.link) with
    | ok d p => exact Or.inr ⟨p, rfl⟩
    | error e p => exact Or.inr ⟨p, rfl⟩
  | store i bytes =>
    cases hd : c.held[i]? with
    | none => exact Or.inl (by simp only [perform, hd])
    | some d => exact Or.inr ⟨(Transport.pool c.link).store d bytes, by simp only [perform, hd]; rfl⟩
  | submit i =>
    cases hd : c.held[i]? with
    | none => exact Or.inl (by simp only [perform, hd])
    | some d =>
      exact Or.inr ⟨(Transport.pool c.link).submit d, by
        simp only [perform, hd, Action.state, submit_eq]⟩
  | takeAcked => exact Or.inr ⟨(Transport.pool c.link).takeAcked.2, by
      simp only [perform, takeAcked_eq]⟩
  | release i =>
    cases hd : c.held[i]? with
    | none => exact Or.inl (by simp only [perform, hd])
    | some d => exact Or.inr ⟨(Transport.pool c.link).release d, by simp only [perform, hd]; rfl⟩

/-- Two links with the same address and the same buffers, whose callers hold the same. -/
structure Alike {M : Type} [Transport M] (c : Caller L) (c' : Caller M) : Prop where
  mac : Transport.mac c'.link = Transport.mac c.link
  ready : Transport.ready c'.link = Transport.ready c.link
  pool : Transport.pool c'.link = Transport.pool c.link
  held : c'.held = c.held

/-- They answer alike, and have the same buffers afterwards, whatever they do on the wire. -/
theorem Alike.perform {M : Type} [Transport M] [PooledTransport M] {c' : Caller M}
    (h : Alike c c') {call : Call} (hprocess : call ≠ .process) (hreceive : call.room? = none) :
    (c'.perform call).1 = (c.perform call).1 ∧
      Transport.pool (c'.perform call).2.link = Transport.pool (c.perform call).2.link ∧
      (c'.perform call).2.held = (c.perform call).2.held := by
  obtain ⟨hmac, hready, hpool, hheld⟩ := h
  cases call with
  | process => exact absurd rfl hprocess
  | receive buffer => cases hreceive
  | mac => exact ⟨congrArg Answer.mac hmac, hpool, hheld⟩
  | ready => exact ⟨congrArg Answer.flag hready, hpool, hheld⟩
  | content i =>
    refine ⟨?_, hpool, hheld⟩
    simp only [Caller.perform, hheld]
    unfold Transport.content
    rw [hpool]
  | ackAvailable =>
    refine ⟨?_, hpool, hheld⟩
    simp only [Caller.perform, Transport.ackAvailable, hpool]
  | truncate i length =>
    refine ⟨rfl, hpool, ?_⟩
    simp only [Caller.perform, hheld]
  | alloc length =>
    simp only [Caller.perform, alloc_eq, Action.on, hpool, hheld]
    cases TransmitPool.alloc length (Transport.pool c.link) with
    | ok d p => exact ⟨rfl, by rw [pool_setPool, pool_setPool], rfl⟩
    | error e p => exact ⟨rfl, by rw [pool_setPool, pool_setPool], rfl⟩
  | store i bytes =>
    cases hd : c.held[i]? with
    | none => simp only [Caller.perform, hheld, hd, hpool, and_self]
    | some d =>
      simp only [Caller.perform, hheld, hd, Transport.store, pool_setPool, hpool, and_self]
  | submit i =>
    cases hd : c.held[i]? with
    | none => simp only [Caller.perform, hheld, hd, hpool, and_self]
    | some d =>
      simp only [Caller.perform, hheld, hd, Action.result, Action.state, submit_eq, pool_setPool,
        hpool, and_self]
  | takeAcked =>
    simp only [Caller.perform, takeAcked_eq, pool_setPool, hpool, hheld, and_self]
  | release i =>
    cases hd : c.held[i]? with
    | none => simp only [Caller.perform, hheld, hd, hpool, and_self]
    | some d =>
      simp only [Caller.perform, hheld, hd, Transport.release, pool_setPool, hpool, and_self]

end Caller

end RomCast
