import RomCast.Proofs.Endpoint.Addressed
import RomCast.Proofs.Endpoint.Outcomes
import RomCast.Proofs.Link.Flowing

set_option autoImplicit false

/-!
# Sending on links that flow

On a link that flows an endpoint is never short of a buffer.  What it sends is therefore decided by
the endpoint alone: a frame and a datagram go into the link's pipeline, behind what is there, are
counted, and nothing else changes.  Flushing moves the pipeline along, until nothing waits.
-/

namespace RomCast.Endpoint

open Conduit (Ready Flowed)

variable {L A : Type} [Incoming A] [Transport L] [Conduit L A] [FlowingTransport L A]
  {e : Endpoint L}

/-- Flushing sends something as long as something waits. -/
theorem flush_flowed (h : Ready e.link) :
    ∃ l', flush e = .ok () { e with link := l' } ∧ Flowed none [] e.link l' ∧
      (Transport.pool l').waiting.length ≤ (Transport.pool e.link).waiting.length - 1 := by
  obtain ⟨n, l, hprocess, hflowed, hpool, hmoves⟩ := Conduit.process_flowed h
  refine ⟨Transport.drainAcks l, ?_, ?_, ?_⟩
  · simp only [flush, Action.bind_apply, onLink, Action.on, hprocess, drainAcks,
      Action.modify_apply]
  · exact hflowed.trans (Conduit.drainAcks_flowed (hflowed.ready h))
  · have hsame : (Transport.pool (Transport.drainAcks l)).waiting = (Transport.pool l).waiting := by
      rw [ExactTransport.drainAcks_eq, PooledTransport.pool_setPool]
      rfl
    rw [hsame, hpool, TransmitPool.waiting_completeFronts, List.length_drop]
    by_cases hwaiting : (Transport.pool e.link).waiting = []
    · rw [hwaiting]
      exact Nat.le_of_eq (Nat.zero_sub n)
    · have hn := hmoves hwaiting
      omega

/-- A buffer is found at the first or the second try. -/
theorem reserve_flowed {length : Nat} (hlength : length ≤ bufferSize) (h : Ready e.link) :
    ∃ d l', reserve length e = .ok (some d) { e with link := l' } ∧ d.length = length ∧
      Flowed (some d) [] e.link l' := by
  have hdrained := Conduit.drainAcks_flowed h
  have hready := hdrained.ready h
  have hreserve : reserve length e = reserveTries length (maxAllocRetries + 1)
      { e with link := Transport.drainAcks e.link } := by
    simp only [reserve, Action.bind_apply, drainAcks, Action.modify_apply]
  by_cases hfree : (Transport.pool (Transport.drainAcks e.link)).free = []
  · have hacked : (Transport.pool (Transport.drainAcks e.link)).acked = [] := by
      rw [ExactTransport.drainAcks_eq, PooledTransport.pool_setPool]
      rfl
    obtain ⟨l₁, hprocess, hsent, hsome⟩ := Conduit.free_after_process hready hfree hacked
    have hcollected := Conduit.drainAcks_flowed (hsent.ready hready)
    have hflowed := hdrained.trans (hsent.trans hcollected)
    obtain ⟨d, l', halloc, hd, htaken⟩ := Conduit.alloc_flowed (hflowed.ready h) hsome hlength
    refine ⟨d, l', ?_, hd, hflowed.trans htaken⟩
    have hexhausted := ExactTransport.alloc_exhausted hfree hlength
    rw [hreserve, reserveTries]
    simp only [Action.bind_apply, Action.attempt, onLink, Action.on, hexhausted, hprocess,
      drainAcks, Action.modify_apply]
    exact reserveTries_of_alloc halloc 63
  · obtain ⟨d, l', halloc, hd, htaken⟩ := Conduit.alloc_flowed hready hfree hlength
    refine ⟨d, l', ?_, hd, hdrained.trans htaken⟩
    rw [hreserve]
    exact reserveTries_of_alloc halloc maxAllocRetries

/-- Submitting the front of what was written into a held buffer. -/
theorem submit_flowed {l : L} {d : Descriptor} {queued : List Bytes}
    (h : Flowed (some d) queued l e.link) {bytes : Bytes} {length : Nat}
    (hlength : length ≤ d.length) (hbytes : length ≤ bytes.length) (hd : d.length ≤ bufferSize) :
    ∃ l', submit (d.truncate length) { e with link := Transport.store e.link d bytes } =
        .ok () { e with
          link := l', counters := { e.counters with txFrames := e.counters.txFrames + 1 } } ∧
      Flowed none (queued ++ [bytes.take length]) l l' := by
  obtain ⟨l', hsubmit, hflowed⟩ := h.submit hlength hbytes hd
  refine ⟨l', ?_, hflowed⟩
  simp only [submit, Action.bind_apply, Action.get_apply, FlowingTransport.ready_eq, if_true,
    onLink, Action.on, hsubmit]
  rfl

/-- A frame that fits a buffer is sent. -/
theorem send_flowed {frame : Bytes} (hlength : frame.length ≤ bufferSize) (h : Ready e.link) :
    ∃ l', (send frame : Action FrameError (Endpoint L) Bool) e = .ok true { e with
          link := l', counters := { e.counters with txFrames := e.counters.txFrames + 1 } } ∧
      Flowed none [frame] e.link l' := by
  obtain ⟨d, l₁, hreserve, hd, hreserved⟩ := reserve_flowed hlength h
  have hwhole : d.truncate frame.length = d := by
    rw [Descriptor.truncate, ← hd, Nat.min_self]
  obtain ⟨l', hsubmit, hflowed⟩ := submit_flowed (e := { e with link := l₁ }) hreserved
    (Nat.le_of_eq hd.symm) (Nat.le_refl frame.length) (hd ▸ hlength)
  rw [hwhole] at hsubmit
  rw [List.take_length] at hflowed
  refine ⟨l', ?_, hflowed⟩
  unfold send
  rw [Action.bind_apply, Action.mapError, hreserve]
  simp only [Action.bind_apply, Action.modify_apply, Action.mapError, hsubmit, Action.pure_apply]

/-- A datagram whose payload can be written is sent, addressed as the endpoint is then. -/
theorem sendDatagram_flowed {room : Nat} {fill : Action GuardError Writer Unit} {payload : Bytes}
    (hfill : Writer.FillsWithin room fill payload) (hroom : payload.length ≤ room)
    (hmax : room ≤ maxDatagram) (h : Ready e.link) :
    ∃ l', (sendDatagram room fill : Action FrameError (Endpoint L) Bool) e = .ok true { e with
          link := l', identification := e.identification + 1
          counters := { e.counters with txFrames := e.counters.txFrames + 1 } } ∧
      Flowed none
        [({ e with identification := e.identification + 1 } : Endpoint L).addressing.frame payload]
        e.link l' := by
  have hoverhead : frameOverhead = 42 := rfl
  have hlength : frameOverhead + room ≤ bufferSize := by
    have hmax' : room ≤ 1558 := hmax
    show 42 + room ≤ 1600
    omega
  obtain ⟨d, l₁, hreserve, hd, hreserved⟩ := reserve_flowed hlength h
  let e₂ : Endpoint L := { e with link := l₁, identification := e.identification + 1 }
  have haddressing : e₂.addressing =
      ({ e with identification := e.identification + 1 } : Endpoint L).addressing :=
    addressing_link (e := { e with identification := e.identification + 1 }) hreserved.mac
  have hbuffer : 42 + room ≤ (Transport.content l₁ d).length := by
    have haccounts : (Transport.pool l₁).Accounts [d.slot] := hreserved.accounts
    show 42 + room ≤ (((Transport.pool l₁).buffer d.slot).take d.length).length
    rw [List.length_take, haccounts.length_buffer, hd]
    omega
  obtain ⟨rest, hwrite⟩ := e₂.addressing.write_holding hfill hroom hbuffer
  have hframe : (e₂.addressing.frame payload).length = 42 + payload.length :=
    e₂.addressing.length_frame payload
  have hshort : 42 + payload.length ≤ d.length := by omega
  have hwritten : 42 + payload.length ≤ (e₂.addressing.frame payload ++ rest).length := by
    rw [List.length_append, hframe]
    exact Nat.le_add_right ..
  obtain ⟨l', hsubmit, hflowed⟩ :=
    submit_flowed (e := e₂) hreserved hshort hwritten (hd ▸ hlength)
  have hfront : (e₂.addressing.frame payload ++ rest).take (42 + payload.length) =
      e₂.addressing.frame payload := by
    rw [← hframe, List.take_left]
  rw [hfront, haddressing] at hflowed
  refine ⟨l', ?_, hflowed⟩
  unfold sendDatagram
  rw [Action.bind_apply, Action.mapError, hreserve]
  simp only [Action.bind_apply, Action.modify_apply, Action.get_apply, Action.state,
    Action.result]
  rw [hwrite]
  simp only [Action.bind_apply, Writer.buffer_holding, Action.mapError]
  rw [hsubmit]
  rfl

end RomCast.Endpoint
