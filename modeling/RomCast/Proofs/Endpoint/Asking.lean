import RomCast.Proofs.Endpoint.Settled
import RomCast.Proofs.Endpoint.Transmit

set_option autoImplicit false

/-!
# When an endpoint asks for its peer

On a link that flows, a datagram is preceded by a question for the peer's address exactly when there
is a peer to be resolved and nothing has been asked yet (`transmit_asks`).  The question that goes
out is noted, so that the next datagram has none before it.
-/

namespace RomCast

namespace Resolver

/-- The resolution when a datagram goes out: if a question had to be asked, it was. -/
def asked (r : Resolver) (now : Nat) : Resolver := if r.needsRequest then r.requestSent now else r

theorem needsRequest_asked (r : Resolver) (now : Nat) : (r.asked now).needsRequest = false := by
  unfold asked
  cases hneeds : r.needsRequest with
  | false => simpa using hneeds
  | true =>
    have hidle : r.state = .idle := by
      simp only [needsRequest, Bool.and_eq_true, decide_eq_true_eq] at hneeds
      exact hneeds.2
    simp [requestSent, hidle, needsRequest]

end Resolver

namespace Endpoint

/-- The question before the next datagram: one while there is a peer to be resolved and nothing has
been asked, and none otherwise. -/
def questions (e : OnMemory) : List Outgoing :=
  match e.resolver.target with
  | none => []
  | some target =>
      if e.resolver.state = .idle then
        [.arp ArpPacket.opRequest (requestFrame (Transport.mac e.link) e.sourceAddress target)
          (requestFrame_arpFrame _ _ _)]
      else []

theorem questions_of_asked {e : OnMemory} (h : e.resolver.needsRequest = false) :
    e.questions = [] := by
  unfold questions
  cases htarget : e.resolver.target with
  | none => rfl
  | some target =>
    have hstate : e.resolver.state ≠ .idle := by
      simpa [Resolver.needsRequest, htarget] using h
    simp only [if_neg hstate]

theorem askFirst_asks (now : Nat) (e : OnMemory) (h : e.link.pool.Accounts [])
    (hflows : e.link.Flows) :
    ∃ e', (askFirst now : Action FrameError OnMemory Unit) e = .ok () e' ∧
      Emits e e' e.questions ∧ e'.resolver = e.resolver.asked now := by
  unfold askFirst
  simp only [Action.bind_apply, Action.get_apply, Action.ite_apply]
  cases hneeds : e.resolver.needsRequest with
  | false =>
    refine ⟨e, rfl, ?_, ?_⟩
    · rw [questions_of_asked hneeds]
      exact emits_refl h
    · simp [Resolver.asked, hneeds]
  | true =>
    obtain ⟨htarget, hidle⟩ : e.resolver.target.isSome = true ∧ e.resolver.state = .idle := by
      simpa [Resolver.needsRequest] using hneeds
    obtain ⟨target, htarget⟩ := Option.isSome_iff_exists.mp htarget
    obtain ⟨sent, e₁, hsend, hemits, hsent⟩ := send_emits (.arp ArpPacket.opRequest
      (requestFrame (Transport.mac e.link) e.sourceAddress target)
      (requestFrame_arpFrame _ _ _)) e h trivial
    rw [hsent hflows, if_pos rfl] at hemits
    rw [Outgoing.frame, hsent hflows] at hsend
    -- Sending the question does not touch the resolution; that it was sent is noted afterwards.
    have hkept : e₁.resolver = e.resolver := by
      have hsettled := settled_aside.send
        (requestFrame (Transport.mac e.link) e.sourceAddress target) e ⟨rfl, rfl⟩
      rw [Action.state_of_ok hsend] at hsettled
      exact hsettled.2
    refine ⟨{ e₁ with
      resolver := e₁.resolver.requestSent now
      counters := { e₁.counters with arpRequests := e₁.counters.arpRequests + 1 } }, ?_, ?_, ?_⟩
    · simp only [if_true, sendRequest, Action.bind_apply, Action.get_apply, htarget, hsend]
      rfl
    · have hquestions : e.questions = [.arp ArpPacket.opRequest
          (requestFrame (Transport.mac e.link) e.sourceAddress target)
          (requestFrame_arpFrame _ _ _)] := by
        simp only [questions, htarget, if_pos hidle]
      rw [hquestions]
      exact hemits.congr rfl rfl
    · show e₁.resolver.requestSent now = _
      rw [hkept, Resolver.asked, if_pos hneeds]

/-- On a link that flows, a datagram goes out behind the question that had to be asked. -/
theorem transmit_asks (now room : Nat) {fill : Action GuardError Writer Unit} {payload : Bytes}
    (hfill : Writer.FillsWithin room fill payload) (hroom : payload.length ≤ room)
    (hmax : room ≤ maxDatagram) (e : OnMemory) (h : e.link.pool.Accounts [])
    (hflows : e.link.Flows) :
    ∃ e' a fits, (transmit now room fill : Action FrameError OnMemory Bool) e = .ok true e' ∧
      Emits e e' (e.questions ++ [Outgoing.datagram a payload fits]) ∧
      e'.resolver = e.resolver.asked now := by
  obtain ⟨e₁, hasked, hquestions, hresolver⟩ := askFirst_asks now e h hflows
  obtain ⟨sent, e', out, hsent, hemits, hout, hall⟩ :=
    sendDatagram_emits room hfill hroom hmax e₁ hquestions.accounts
  rw [hall (hflows.congr hquestions.queued)] at hsent hout
  obtain ⟨a, fits, hone⟩ : ∃ a fits, out = [Outgoing.datagram a payload fits] := hout
  refine ⟨e', a, fits, ?_, ?_, ?_⟩
  · rw [transmit, Action.bind_apply, hasked]
    exact hsent
  · rw [← hone]
    exact hquestions.trans hemits
  · have hsettled := sendDatagram_settled room fill e₁ ⟨rfl, hresolver⟩
    rw [Action.state_of_ok hsent] at hsettled
    exact hsettled.2

end Endpoint

end RomCast
