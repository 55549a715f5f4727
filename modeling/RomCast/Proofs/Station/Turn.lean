import RomCast.Station

set_option autoImplicit false

/-!
# One turn of the receive loop

A turn reads a frame and hands the packet that it carries to the station's role.  Reading leaves the
role alone, so what a turn does to the role is what the packet does to it (`role_turn`), and polling
is turns followed by a flush (`state_poll`).
-/

namespace RomCast.Station

variable {L ρ ε : Type} [Transport L]

/-! ## Reading leaves the role alone -/

theorem role_receive (s : Station L ρ) : (receive.state s).role = s.role := by
  unfold receive
  rw [Action.state_on]

theorem role_readPacket (length : Nat) (s : Station L ρ) :
    ((readPacket length : Action ε (Station L ρ) _).state s).role = s.role := by
  simp only [Action.state, readPacket]
  cases Endpoint.handle (s.endpoint, s.buffer.take length) with
  | ok range e =>
    cases range with
    | none => rfl
    | some range => rfl
  | error cause e => rfl

/-- What reading a packet does to the endpoint is what the frame in the buffer does to it. -/
theorem endpoint_readPacket (length : Nat) (s : Station L ρ) :
    ((readPacket length : Action ε (Station L ρ) _).state s).endpoint =
      (Endpoint.handle.state (s.endpoint, s.buffer.take length)).1 := by
  simp only [Action.state, readPacket]
  cases Endpoint.handle (s.endpoint, s.buffer.take length) with
  | ok range? e => cases range? <;> rfl
  | error cause e => rfl

theorem role_read (s : Station L ρ) : (read.state s).role = s.role := by
  have hreceive := role_receive s
  unfold read
  cases h : (receive : Action LinkError (Station L ρ) _) s with
  | error cause s' =>
    rw [Action.state_of_error h] at hreceive
    rw [Action.state_bind_of_error h, hreceive]
  | ok length s' =>
    rw [Action.state_of_ok h] at hreceive
    rw [Action.state_bind_of_ok h, ← hreceive]
    cases length with
    | none => rfl
    | some length =>
      rw [Action.state_bind_pure]
      exact role_readPacket length s'

/-! ## What a turn does -/

/-- The packet that the next turn hands to the role. -/
def packet? (s : Station L ρ) : Option Message :=
  match read s with
  | .ok (some (some message)) _ => some message
  | _ => none

/-- The station when the next frame has been read and its packet not yet handled. -/
def afterRead (s : Station L ρ) : Station L ρ := read.state s

/-- The station after its role has handled a packet, also when that failed. -/
def handled (handler : Handler L ρ) (message : Message) (s : Station L ρ) : Station L ρ :=
  let (endpoint, role) := (handler message).state (s.endpoint, s.role)
  { s with endpoint, role }

omit [Transport L] in
theorem state_dispatch (handler : Handler L ρ) (message : Message) (s : Station L ρ) :
    ((dispatch handler message : Action ε (Station L ρ) Unit)).state s =
      handled handler message s := by
  unfold dispatch handled
  rw [Action.state_bind_pure, Action.state_on, Action.state_attempt]

/-- A turn reads a frame, and then the role handles the packet, if there is one. -/
theorem state_turn (handler : Handler L ρ) (s : Station L ρ) :
    (turn handler).state s = match packet? s with
      | none => afterRead s
      | some message => handled handler message (afterRead s) := by
  unfold turn packet? afterRead
  cases h : (read : Action LinkError (Station L ρ) _) s with
  | error cause s' => rw [Action.state_bind_of_error h, Action.state_of_error h]
  | ok packet s' =>
    rw [Action.state_bind_of_ok h, Action.state_of_ok h]
    cases packet with
    | none => rfl
    | some packet =>
      cases packet with
      | none => rfl
      | some message =>
        rw [Action.state_bind_pure]
        exact state_dispatch handler message s'

/-- When a role's own state after a packet depends on nothing else, a turn changes it by the packet
that was read. -/
theorem role_turn (handler : Handler L ρ) (change : Message → ρ → ρ)
    (hchange : ∀ message e role, ((handler message).state (e, role)).2 = change message role)
    (s : Station L ρ) :
    ((turn handler).state s).role = match packet? s with
      | none => s.role
      | some message => change message s.role := by
  rw [state_turn]
  cases packet? s with
  | none => exact role_read s
  | some message =>
    have hrole : (afterRead s).role = s.role := role_read s
    show ((handler message).state ((afterRead s).endpoint, (afterRead s).role)).2 = _
    rw [hchange, hrole]

/-! ## Polling -/

/-- The state after so many turns. -/
def afterTurns (handler : Handler L ρ) : Nat → Station L ρ → Station L ρ
  | 0, s => s
  | n + 1, s => afterTurns handler n ((turn handler).state s)

/-- Draining a link is a number of turns. -/
theorem state_drainFrom (handler : Handler L ρ) (n : Nat) (s : Station L ρ) :
    ∃ turns, (drainFrom handler n).state s = afterTurns handler turns s := by
  induction n generalizing s with
  | zero => exact ⟨0, rfl⟩
  | succ n ih =>
    unfold drainFrom
    cases h : turn handler s with
    | error cause s' =>
      refine ⟨1, ?_⟩
      rw [Action.state_bind_of_error h]
      exact (Action.state_of_error h).symm
    | ok more s' =>
      rw [Action.state_bind_of_ok h]
      cases more with
      | false => exact ⟨1, (Action.state_of_ok h).symm⟩
      | true =>
        obtain ⟨turns, hturns⟩ := ih s'
        refine ⟨turns + 1, ?_⟩
        rw [if_pos rfl, Action.state_bind_pure, hturns, afterTurns, Action.state_of_ok h]

/-- Polling is turns, and a flush unless the link has failed. -/
theorem state_poll (handler : Handler L ρ) (s : Station L ρ) :
    ∃ turns, (poll handler).state s = afterTurns handler turns s ∨
      (poll handler).state s =
        (onEndpoint Endpoint.flush).state (afterTurns handler turns s) := by
  obtain ⟨turns, hturns⟩ := state_drainFrom handler (Transport.pending s.endpoint.link + 1) s
  refine ⟨turns, ?_⟩
  unfold poll
  rw [Action.state_bind_of_ok (Action.get_apply s)]
  cases h : drainFrom handler (Transport.pending s.endpoint.link + 1) s with
  | error cause s' =>
    rw [Action.state_bind_of_error h, ← hturns]
    exact Or.inl (Action.state_of_error h).symm
  | ok frames s' =>
    rw [Action.state_bind_of_ok h, Action.state_bind_pure, ← hturns, Action.state_of_ok h]
    exact Or.inr rfl

end RomCast.Station
