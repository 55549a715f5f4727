import RomCast.Proofs.Endpoint.Fifo
import RomCast.Proofs.Station.Memory

set_option autoImplicit false

/-!
# Stations between two operations

Between two operations of a station on a link in memory every transmit buffer is accounted for, and
the receive buffer has its length (`Intact`).  Nothing that a station reads or sends changes that,
and nothing that happens at its endpoint or on its wire.  That is enough for polling to come to its
end: it reads exactly the frames that wait, also when there is no buffer to answer with (`poll_eq`).
-/

namespace RomCast

/-- When an operation has ended, every buffer is accounted for, and there are as many as before. -/
theorem Endpoint.Operation.apply_accounts {L : Type} [Transport L] [PooledTransport L]
    (operation : Operation) {e : Endpoint L} (h : (Transport.pool e.link).Accounts []) :
    (Transport.pool (operation.apply e).link).Accounts [] ∧
      (Transport.pool (operation.apply e).link).buffers.length =
        (Transport.pool e.link).buffers.length := by
  have hcustody : Recorded.Custody (Tally.trivial L) (Transport.pool e.link).buffers.length none
      e.counters.txFrames e.link { link := e.link } :=
    ⟨rfl, h, rfl, by simp, True.intro⟩
  have hpaired : Endpoint.Paired (Recorded.custody (Tally.trivial L)
      (Transport.pool e.link).buffers.length) none e (e.withLink { link := e.link }) :=
    ⟨_, rfl, hcustody⟩
  obtain ⟨r, -, hr⟩ := operation.apply_paired hpaired
  exact ⟨hr.accounts, hr.length_eq⟩

namespace Station

variable {ρ : Type} {queue : Nat} {s s' : Station MemoryLink ρ}

/-- A station between two operations, on a link with this many transmit buffers. -/
structure Intact (queue : Nat) (s : Station MemoryLink ρ) : Prop where
  accounts : s.endpoint.link.pool.Accounts []
  buffers : s.endpoint.link.pool.buffers.length = queue
  buffer : s.buffer.length = bufferSize

/-- What is sent leaves a station intact. -/
theorem Intact.emit (h : Intact queue s) {e' : Endpoint.OnMemory} {out : List Outgoing}
    (hemits : s.endpoint.Emits e' out) : Intact queue { s with endpoint := e' } :=
  ⟨hemits.accounts, hemits.queued.buffers.trans h.buffers, h.buffer⟩

/-- What happens on the wires, or to the role, does not matter. -/
theorem Intact.congr (h : Intact queue s) (hpool : s'.endpoint.link.pool = s.endpoint.link.pool)
    (hbuffer : s'.buffer = s.buffer) : Intact queue s' :=
  ⟨hpool ▸ h.accounts, hpool ▸ h.buffers, hbuffer ▸ h.buffer⟩

theorem Intact.incident (h : Intact queue s) (incident : Endpoint.Incident) :
    Intact queue
      { s with endpoint := (Endpoint.Tapped.step ⟨s.endpoint, []⟩ incident).endpoint } := by
  cases incident with
  | operation o =>
    obtain ⟨haccounts, hbuffers⟩ := o.apply_accounts (e := s.endpoint) h.accounts
    exact ⟨haccounts, hbuffers.trans h.buffers, h.buffer⟩
  | batch n => exact h.congr rfl rfl
  | take n => exact h.congr rfl rfl
  | deliver frame => exact h.congr rfl rfl

/-! ## Polling -/

section Polling

variable {change : Message → ρ → ρ} {answer : ρ → Message → List Bytes}
  {handler : Handler MemoryLink ρ}

theorem Intact.turned {frame : Bytes} {rest : List Bytes} {answers out : List Outgoing}
    (h : Intact queue s) (hturned : Turned change answer s s' frame rest answers out) :
    Intact queue s' :=
  ⟨hturned.emits.accounts, hturned.emits.queued.buffers.trans h.buffers, hturned.buffer⟩

/-- What holds of a station before a turn and after every frame, holds after the turn. -/
theorem turn_keeps {P : Station MemoryLink ρ → Prop} (hplays : Plays change answer handler)
    (haccounts : s.endpoint.link.pool.Accounts []) (hbuffer : s.buffer.length = bufferSize) (h : P s)
    (hturned : ∀ {s' frame rest answers out},
      Turned change answer s s' frame rest answers out → P s') :
    P ((Station.turn handler).state s) := by
  cases hinbound : s.endpoint.link.inbound with
  | nil =>
    rw [Action.state_of_ok (turn_of_nil handler hinbound)]
    exact h
  | cons frame rest =>
    obtain ⟨s', answers, out, hturn, hread⟩ := turn_turned hplays hinbound haccounts hbuffer
    rw [Action.state_of_ok hturn]
    exact hturned hread

theorem Intact.turn (hplays : Plays change answer handler) (h : Intact queue s) :
    Intact queue ((Station.turn handler).state s) :=
  turn_keeps hplays h.accounts h.buffer h h.turned

theorem Intact.afterTurns (hplays : Plays change answer handler) (h : Intact queue s) (n : Nat) :
    Intact queue (Station.afterTurns handler n s) := by
  induction n generalizing s with
  | zero => exact h
  | succ n ih => exact ih (h.turn hplays)

/-- Draining the link reads the frames that wait, one in every turn. -/
theorem Intact.drainFrom_eq (hplays : Plays change answer handler) (h : Intact queue s) {n : Nat}
    (hn : s.endpoint.link.inbound.length < n) :
    drainFrom handler n s = .ok s.endpoint.link.inbound.length
      (Station.afterTurns handler s.endpoint.link.inbound.length s) := by
  induction n generalizing s with
  | zero => exact absurd hn (Nat.not_lt_zero _)
  | succ n ih =>
    unfold drainFrom
    cases hinbound : s.endpoint.link.inbound with
    | nil =>
      rw [Action.bind_apply, turn_of_nil handler hinbound]
      rfl
    | cons frame rest =>
      obtain ⟨s', answers, out, hturn, hturned⟩ :=
        turn_turned hplays hinbound h.accounts h.buffer
      have hrest : s'.endpoint.link.inbound = rest := hturned.emits.queued.inbound
      have hdrain := ih (h.turned hturned) (by
        rw [hrest]
        rw [hinbound, List.length_cons] at hn
        exact Nat.lt_of_succ_lt_succ hn)
      rw [hrest] at hdrain
      rw [Action.bind_apply, hturn]
      simp only [if_true, Action.bind_apply, hdrain, Action.pure_apply]
      rw [List.length_cons, Station.afterTurns, Action.state_of_ok hturn]

/-- Polling is as many turns as frames wait, and a flush. -/
theorem Intact.poll_eq (hplays : Plays change answer handler) (h : Intact queue s) :
    let after := Station.afterTurns handler s.endpoint.link.inbound.length s
    Station.poll handler s = .ok s.endpoint.link.inbound.length
      { after with endpoint := after.endpoint.flushed } := by
  have hdrain := h.drainFrom_eq hplays (Nat.lt_succ_self _)
  have hpending : Transport.pending s.endpoint.link = s.endpoint.link.inbound.length := rfl
  unfold Station.poll
  rw [Action.bind_apply, Action.get_apply]
  simp only [hpending, Action.bind_apply, hdrain]
  rfl

theorem Intact.poll (hplays : Plays change answer handler) (h : Intact queue s) :
    Intact queue ((Station.poll handler).state s) := by
  rw [Action.state_of_ok (h.poll_eq hplays)]
  have hturns := h.afterTurns hplays s.endpoint.link.inbound.length
  exact hturns.emit (Endpoint.flushed_emits hturns.accounts)

end Polling

end Station

end RomCast
