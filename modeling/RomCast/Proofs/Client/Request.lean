import RomCast.Proofs.Client.Deliver
import RomCast.Proofs.Station.Memory

set_option autoImplicit false

/-!
# What a client sends

A client answers a signal for one of its modules with a request for the content, and nothing else
with anything (`handler_plays`).
-/

namespace RomCast.Client

variable {κ : Type}

/-- The packets that answer a packet. -/
def answer (s : Subscriptions κ) (message : Message) : List Bytes :=
  match message.body with
  | .signal =>
      if s.replicas.contains message.module then
        [controlPacket .update message.module message.contentHash]
      else []
  | _ => []

/-- A packet changes what the client keeps as `deliver` says, and is answered by a request if it is
a signal for one of the client's modules. -/
theorem handler_plays (now : Nat) :
    Station.Plays deliver answer (handler (L := MemoryLink) (κ := κ) now) := by
  intro message e s h
  have hdeliver := handler_deliver now message e s
  unfold handler at hdeliver ⊢
  rw [Action.state_bind_of_ok (Action.get_apply (e, s))] at hdeliver ⊢
  unfold answer
  by_cases hmodule : s.replicas.contains message.module = true
  · simp only [hmodule, if_true] at hdeliver ⊢
    cases hbody : message.body with
    | signal =>
      obtain ⟨e', out, hrequest, hstreams⟩ :=
        Endpoint.control_streams now .update message.module message.contentHash e h
      refine ⟨e', out, ?_, hstreams⟩
      simp only [hbody] at hdeliver ⊢
      rw [Action.state_onFirst] at hdeliver ⊢
      refine Prod.ext ?_ hdeliver
      exact Action.state_of_ok hrequest
    | update =>
      simp only [hbody] at hdeliver ⊢
      exact ⟨e, [], Prod.ext rfl hdeliver, Endpoint.streams_refl h⟩
    | data f =>
      simp only [hbody] at hdeliver ⊢
      refine ⟨e, [], Prod.ext ?_ hdeliver, Endpoint.streams_refl h⟩
      rw [Action.state_onSecond]
  · simp only [hmodule, if_false, Bool.false_eq_true] at hdeliver ⊢
    refine ⟨e, [], Prod.ext rfl hdeliver, ?_⟩
    cases message.body with
    | signal => exact Endpoint.streams_refl h
    | update => exact Endpoint.streams_refl h
    | data f => exact Endpoint.streams_refl h

/-- Asking for a module's content sends at most a request. -/
theorem requestUpdate_streams (now : Nat) (name : ModuleName) (c : Client MemoryLink κ)
    (h : c.endpoint.link.pool.Accounts []) :
    ∃ e' out, (requestUpdate now name).state c = { c with endpoint := e' } ∧
      c.endpoint.Streams e' (if c.role.replicas.contains name then
        [controlPacket .update name ContentHash.zero] else []) out := by
  unfold requestUpdate
  rw [Action.state_bind_of_ok (Action.get_apply c)]
  by_cases hname : c.role.replicas.contains name = true
  · rw [if_pos hname, if_pos hname]
    obtain ⟨e', out, hrequest, hstreams⟩ :=
      Endpoint.control_streams now .update name ContentHash.zero c.endpoint h
    refine ⟨e', out, ?_, hstreams⟩
    rw [Station.onEndpoint, Action.state_on]
    rw [show (request now name ContentHash.zero).state c.endpoint = e' from
      Action.state_of_ok hrequest]
  · rw [if_neg hname, if_neg hname]
    exact ⟨c.endpoint, [], rfl, Endpoint.streams_refl h⟩

end RomCast.Client
