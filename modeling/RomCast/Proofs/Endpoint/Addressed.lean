import RomCast.Proofs.Endpoint.Emits
import RomCast.Proofs.Link.Pooled

set_option autoImplicit false

/-!
# Addressing while frames are sent

How the next datagram of an endpoint is addressed does not change while the endpoint reserves
buffers, asks for its peer, or sends whole frames, over any link that is built on a pool; and none
of these can fail but for want of a buffer, which drops the frame.
-/

namespace RomCast.Endpoint

variable {L : Type} [Transport L]

/-- An endpoint that addresses datagrams as before, with this buffer in hand, or none. -/
structure Steady (e e' : Endpoint L) (held : Option Descriptor) : Prop where
  addressing : e'.addressing = e.addressing
  accounts : (Transport.pool e'.link).Accounts (held.map Descriptor.slot).toList

theorem Steady.trans {e e' e'' : Endpoint L} {held held' : Option Descriptor}
    (h : Steady e e' held) (h' : Steady e' e'' held') : Steady e e'' held' :=
  ⟨h'.addressing.trans h.addressing, h'.accounts⟩

/-- Another link with the same hardware address. -/
theorem addressing_link {e : Endpoint L} {l : L} (h : Transport.mac l = Transport.mac e.link) :
    ({ e with link := l } : Endpoint L).addressing = e.addressing := by
  simp only [addressing, h, sourceAddress, targetAddress]

variable [PooledTransport L]

theorem steady_drainAcks {e : Endpoint L} (h : (Transport.pool e.link).Accounts []) :
    Steady e { e with link := Transport.drainAcks e.link } none := by
  obtain ⟨haccounts, hmac⟩ := PooledTransport.drainAcks_accounts h
  exact ⟨addressing_link hmac, haccounts⟩

/-! ## Buffers -/

theorem reserveTries_steady {length : Nat} (hlength : length ≤ bufferSize) (tries : Nat)
    (e : Endpoint L) (h : (Transport.pool e.link).Accounts []) :
    ∃ d? e', reserveTries length tries e = .ok d? e' ∧ Steady e e' d? ∧
      ∀ d, d? = some d → d.length = length := by
  induction tries generalizing e with
  | zero => exact ⟨none, _, rfl, ⟨rfl, h⟩, fun d hd => nomatch hd⟩
  | succ tries ih =>
    have halloc := PooledTransport.alloc_eq length e.link
    rw [Action.on] at halloc
    rcases TransmitPool.alloc_accounts h hlength with
      ⟨-, hnone⟩ | ⟨slot, rest, -, hsome, haccounts⟩
    · -- No buffer is free: what waits is sent, and the next try is made.
      rw [hnone] at halloc
      have hpool := PooledTransport.pool_setPool (Transport.pool e.link) e.link
      have hback : (Transport.pool (Transport.setPool (Transport.pool e.link) e.link)).Accounts
          [] := by
        rw [hpool]
        exact h
      obtain ⟨l, hprocess, hprocessed, -, hmac⟩ := PooledTransport.exists_process hback
      rw [PooledTransport.mac_setPool] at hmac
      have hsent : Steady e { e with link := l } none := ⟨addressing_link hmac, hprocessed⟩
      have hdrained := hsent.trans (steady_drainAcks (e := { e with link := l }) hprocessed)
      obtain ⟨d?, e', htry, hsteady, hd⟩ :=
        ih { e with link := Transport.drainAcks l } hdrained.accounts
      refine ⟨d?, e', ?_, hdrained.trans hsteady, hd⟩
      rw [← htry]
      simp only [reserveTries, Action.bind_apply, Action.attempt, onLink, Action.on, halloc,
        hprocess, drainAcks, Action.modify_apply]
    · rw [hsome] at halloc
      refine ⟨some ⟨slot, length⟩,
        { e with link := Transport.setPool { Transport.pool e.link with free := rest } e.link },
        ?_, ⟨addressing_link (PooledTransport.mac_setPool _ _), ?_⟩, ?_⟩
      · simp only [reserveTries, Action.bind_apply, Action.attempt, onLink, Action.on, halloc,
          Action.pure_apply]
      · show (Transport.pool (Transport.setPool _ e.link)).Accounts [slot]
        rw [PooledTransport.pool_setPool]
        exact haccounts
      · rintro _ ⟨⟩
        rfl

/-- Reserving a buffer that frames fit in succeeds, or drops the frame. -/
theorem reserve_steady {length : Nat} (hlength : length ≤ bufferSize) (e : Endpoint L)
    (h : (Transport.pool e.link).Accounts []) :
    ∃ d? e', reserve length e = .ok d? e' ∧ Steady e e' d? ∧
      ∀ d, d? = some d → d.length = length := by
  have hdrained := steady_drainAcks h
  obtain ⟨d?, e', htry, hsteady, hd⟩ := reserveTries_steady hlength (maxAllocRetries + 1)
    { e with link := Transport.drainAcks e.link } hdrained.accounts
  exact ⟨d?, e', htry, hdrained.trans hsteady, hd⟩

/-- Writing into the held buffer. -/
theorem steady_store {e e' : Endpoint L} {d : Descriptor} (h : Steady e e' (some d))
    (bytes : Bytes) :
    Steady e { e' with link := Transport.store e'.link d bytes } (some d) := by
  refine ⟨(addressing_link (PooledTransport.mac_setPool _ _)).trans h.addressing, ?_⟩
  show (Transport.pool (Transport.setPool _ e'.link)).Accounts [d.slot]
  rw [PooledTransport.pool_setPool]
  exact TransmitPool.store_accounts h.accounts bytes

/-- Submitting the held buffer puts its content behind the frames that wait. -/
theorem submit_steady (d : Descriptor) (e : Endpoint L)
    (h : (Transport.pool e.link).Accounts [d.slot]) :
    ∃ e' before, submit d e = .ok () e' ∧ Steady e e' none ∧
      (Transport.pool e'.link).waiting = before ++ [Transport.content e.link d] ∧
      e'.counters.txFrames = e.counters.txFrames + 1 := by
  -- On a link that is not ready, waiting frames are sent first; the buffers keep their contents.
  obtain ⟨l, hready, haccounts, hbuffers, hmac⟩ : ∃ l : L,
      submit d e = (onLink (Transport.submit d) >>= fun _ =>
        count fun c => { c with txFrames := c.txFrames + 1 }) { e with link := l } ∧
      (Transport.pool l).Accounts [d.slot] ∧
      (Transport.pool l).buffers = (Transport.pool e.link).buffers ∧
      Transport.mac l = Transport.mac e.link := by
    cases hready : Transport.ready e.link with
    | true =>
      refine ⟨e.link, ?_, h, rfl, rfl⟩
      simp only [submit, Action.bind_apply, Action.get_apply, hready, if_true]
    | false =>
      obtain ⟨l, hprocess, haccounts, hbuffers, hmac⟩ := PooledTransport.exists_process h
      refine ⟨l, ?_, haccounts, hbuffers, hmac⟩
      simp only [submit, Action.bind_apply, Action.get_apply, hready, Bool.false_eq_true,
        if_false, onLink, Action.on, hprocess]
  have hcontent : (Transport.pool l).content d = Transport.content e.link d := by
    rw [Transport.content, TransmitPool.content, TransmitPool.content, TransmitPool.buffer,
      TransmitPool.buffer, hbuffers]
  let l' : L := Transport.setPool ((Transport.pool l).submit d) l
  have hpool : Transport.pool l' = (Transport.pool l).submit d := PooledTransport.pool_setPool _ _
  refine ⟨{ e with link := l', counters := { e.counters with
    txFrames := e.counters.txFrames + 1 } }, (Transport.pool l).waiting, ?_, ⟨?_, ?_⟩, ?_, rfl⟩
  · rw [hready]
    simp only [Action.bind_apply, onLink, Action.on, PooledTransport.submit_eq]
    rfl
  · exact addressing_link (e := e) ((PooledTransport.mac_setPool _ _).trans hmac)
  · show (Transport.pool l').Accounts []
    rw [hpool]
    exact TransmitPool.submit_accounts haccounts
  · show (Transport.pool l').waiting = _
    rw [hpool, TransmitPool.waiting_submit, hcontent]

/-! ## Frames -/

/-- Sending a frame that fits a buffer does not fail. -/
theorem send_steady {frame : Bytes} (hlength : frame.length ≤ bufferSize) (e : Endpoint L)
    (h : (Transport.pool e.link).Accounts []) :
    ∃ sent e', (send frame : Action FrameError (Endpoint L) Bool) e = .ok sent e' ∧
      Steady e e' none := by
  obtain ⟨d?, e₁, hreserve, hreserved, -⟩ := reserve_steady hlength e h
  unfold send
  rw [Action.bind_apply, Action.mapError, hreserve]
  cases d? with
  | none => exact ⟨false, e₁, rfl, hreserved⟩
  | some d =>
    have hstored := steady_store hreserved frame
    obtain ⟨e', before, hsubmit, hsteady, -⟩ := submit_steady d _ hstored.accounts
    refine ⟨true, e', ?_, hstored.trans hsteady⟩
    simp only [Action.bind_apply, Action.modify_apply, Action.mapError, hsubmit, Action.pure_apply]

theorem peerMac_requestSent (r : Resolver) (now : Nat) :
    (r.requestSent now).peerMac = r.peerMac := by
  unfold Resolver.requestSent
  cases hstate : r.state with
  | idle => simp [Resolver.peerMac, hstate]
  | awaiting attempts lastSent => simp [Resolver.peerMac, hstate]
  | resolved mac => simp

theorem length_requestFrame (mac : Mac) (source target : Ipv4Address) :
    (requestFrame mac source target).length = 42 := by
  rw [requestFrame, List.length_append, LawfulHeader.length_encode, LawfulHeader.length_encode]
  rfl

/-- Asking for the peer's address leaves the next datagram addressed as before. -/
theorem askFirst_steady (now : Nat) (e : Endpoint L) (h : (Transport.pool e.link).Accounts []) :
    ∃ e', (askFirst now : Action FrameError (Endpoint L) Unit) e = .ok () e' ∧
      Steady e e' none := by
  unfold askFirst sendRequest
  simp only [Action.bind_apply, Action.get_apply, Action.ite_apply]
  by_cases hneeds : e.resolver.needsRequest = true
  · rw [if_pos hneeds]
    cases e.resolver.target with
    | none => exact ⟨e, rfl, rfl, h⟩
    | some target =>
      have hlength := length_requestFrame (Transport.mac e.link) e.sourceAddress target
      obtain ⟨sent, e₁, hsend, hsteady⟩ := send_steady
        (Nat.le_trans (Nat.le_of_eq hlength) (by decide)) e h
      simp only [Action.bind_apply, hsend]
      cases sent with
      | false => exact ⟨e₁, rfl, hsteady⟩
      | true =>
        refine ⟨_, rfl, ?_, hsteady.accounts⟩
        rw [← hsteady.addressing]
        simp only [addressing, peerMac_requestSent, sourceAddress, targetAddress]
  · rw [if_neg hneeds]
    exact ⟨e, rfl, rfl, h⟩

end RomCast.Endpoint
