import RomCast.Client
import RomCast.Proofs.Endpoint.Related
import RomCast.Server

set_option autoImplicit false

/-!
# Stations over links that answer alike

What holds for endpoints holds for servers and clients: polling, announcing and asking do the same
over related links, and no buffer is in use afterwards.
-/

namespace RomCast

open RomCast.Action (Agree Together Parallel)
open Endpoint (Paired Beside)

variable {L M ρ ε α : Type} [Transport L] [Transport M] {R : LinkRelation L M}

namespace Station

/-- The same station over another link. -/
def withLink {L M : Type} (s : Station L ρ) (link : M) : Station M ρ where
  endpoint := s.endpoint.withLink link
  role := s.role
  buffer := s.buffer

/-- A station, and the same one over a related link. -/
def Paired (R : LinkRelation L M) (s : Station L ρ) (t : Station M ρ) : Prop :=
  ∃ m, t = s.withLink m ∧ R.Related none s.endpoint.counters.txFrames s.endpoint.link m

theorem onEndpoint_parallel {x : Action ε (Endpoint L) α} {y : Action ε (Endpoint M) α}
    (h : Parallel (Endpoint.Paired R none) x y) :
    Parallel (Paired R : Station L ρ → Station M ρ → Prop) (onEndpoint x) (onEndpoint y) := by
  refine Together.on ?_
  rintro s _ ⟨m, rfl, hm⟩
  have hpaired : ∀ e f, Endpoint.Paired R none e f →
      Paired R { s with endpoint := e } { s.withLink m with endpoint := f } := by
    rintro e _ ⟨m', rfl, hm'⟩
    exact ⟨m', rfl, hm'⟩
  exact (h s.endpoint (s.endpoint.withLink m) ⟨m, rfl, hm⟩).mono (fun _ => hpaired) hpaired

theorem receive_parallel :
    Parallel (Paired R) (receive : Action LinkError (Station L ρ) (Option Nat))
      (receive : Action LinkError (Station M ρ) (Option Nat)) := by
  refine Together.on ?_
  rintro s _ ⟨m, rfl, hm⟩
  have hpaired : ∀ (received : L × Bytes) (received' : M × Bytes),
      received'.2 = received.2 ∧
        R.Related none s.endpoint.counters.txFrames received.1 received'.1 →
      Paired R
        { s with endpoint := { s.endpoint with link := received.1 }, buffer := received.2 }
        { s.withLink m with
          endpoint := { (s.withLink m).endpoint with link := received'.1 }
          buffer := received'.2 } := by
    rintro ⟨l', buffer⟩ ⟨m', _⟩ ⟨rfl, hm'⟩
    exact ⟨m', rfl, hm'⟩
  exact (R.receive hm s.buffer).mono (fun _ => hpaired) hpaired

theorem readPacket_parallel (length : Nat) :
    Parallel (Paired R) (readPacket length : Action ε (Station L ρ) (Option Message))
      (readPacket length : Action ε (Station M ρ) (Option Message)) := by
  rintro s _ ⟨m, rfl, hm⟩
  have hagree := Endpoint.handle_parallel (R := R) (s.endpoint, s.buffer.take length)
    ((s.withLink m).endpoint, (s.withLink m).buffer.take length) ⟨m, rfl, hm⟩
  simp only [readPacket]
  generalize Endpoint.handle (s.endpoint, s.buffer.take length) = first at hagree ⊢
  generalize Endpoint.handle ((s.withLink m).endpoint, (s.withLink m).buffer.take length) = second
    at hagree ⊢
  cases hagree with
  | @ok range after after' related =>
    obtain ⟨e, frame⟩ := after
    obtain ⟨m', rfl, hm'⟩ := related
    cases range with
    | none => exact .ok ⟨m', rfl, hm'⟩
    | some range => exact .ok ⟨m', rfl, hm'⟩
  | @error cause after after' related =>
    obtain ⟨e, frame⟩ := after
    obtain ⟨m', rfl, hm'⟩ := related
    exact .ok ⟨m', rfl, hm'⟩

/-- Two handlers that do the same with every packet over related links. -/
def Alike (R : LinkRelation L M) (handler : Handler L ρ) (handler' : Handler M ρ) : Prop :=
  ∀ message, Parallel (Beside R) (handler message) (handler' message)

variable {handler : Handler L ρ} {handler' : Handler M ρ}

theorem dispatch_parallel (h : Alike R handler handler') (message : Message) :
    Parallel (Paired R) (dispatch handler message : Action ε (Station L ρ) Unit)
      (dispatch handler' message : Action ε (Station M ρ) Unit) := by
  refine Together.bind (Q := fun _ => Paired R) (Together.on ?_) fun _ => Action.parallel_pure ()
  rintro s _ ⟨m, rfl, hm⟩
  have hattempt : Parallel (Beside R)
      ((handler message).attempt : Action ε (Endpoint L × ρ) (Except FrameError Unit))
      ((handler' message).attempt : Action ε (Endpoint M × ρ) (Except FrameError Unit)) :=
    (h message).attempt
  have hpaired : ∀ (handled : Endpoint L × ρ) (handled' : Endpoint M × ρ),
      Beside R handled handled' →
      Paired R { s with endpoint := handled.1, role := handled.2 }
        { s.withLink m with endpoint := handled'.1, role := handled'.2 } := by
    rintro handled _ ⟨m', rfl, hm'⟩
    exact ⟨m', rfl, hm'⟩
  exact (hattempt (s.endpoint, s.role) (s.endpoint.withLink m, s.role) ⟨m, rfl, hm⟩).mono
    (fun _ => hpaired) hpaired

theorem read_parallel :
    Parallel (Paired R) (read : Action LinkError (Station L ρ) _)
      (read : Action LinkError (Station M ρ) _) := by
  refine receive_parallel.bind ?_
  intro length?
  cases length? with
  | none => exact Action.parallel_pure none
  | some length => exact (readPacket_parallel length).bind fun packet =>
      Action.parallel_pure (some packet)

theorem turn_parallel (h : Alike R handler handler') :
    Parallel (Paired R) (turn handler) (turn handler') := by
  refine read_parallel.bind ?_
  intro packet
  rcases packet with _ | _ | message
  · exact Action.parallel_pure false
  · exact Action.parallel_pure true
  · exact (dispatch_parallel h message).bind fun _ => Action.parallel_pure true

theorem drainFrom_parallel (h : Alike R handler handler') (n : Nat) :
    Parallel (Paired R) (drainFrom handler n) (drainFrom handler' n) := by
  induction n with
  | zero => exact Action.parallel_pure 0
  | succ n ih =>
    refine (turn_parallel h).bind ?_
    intro more
    exact Together.ite (ih.bind fun frames => Action.parallel_pure (frames + 1))
      (Action.parallel_pure 0)

/-- Polling reads as many frames over the one link as over the other. -/
theorem poll_parallel (h : Alike R handler handler') :
    Parallel (Paired R) (poll handler) (poll handler') := by
  refine Action.together_get ?_
  rintro s _ ⟨m, rfl, hm⟩
  have hpending : Transport.pending (s.withLink m).endpoint.link =
      Transport.pending s.endpoint.link := R.pending_eq hm
  rw [hpending]
  refine (drainFrom_parallel h _).bind ?_
  intro frames
  exact (onEndpoint_parallel Endpoint.flush_parallel).bind fun _ => Action.parallel_pure frames

end Station

/-! ## Servers -/

namespace Server

variable {σ : Type} [ContentSource σ]

theorem streamFrom_parallel (now : Nat) (name : ModuleName) (source : σ) (size : Nat)
    (hash : ContentHash) (n offset : Nat) :
    Parallel (Paired R none)
      (streamFrom now name source size hash n offset : Action FrameError (Endpoint L) Unit)
      (streamFrom now name source size hash n offset : Action FrameError (Endpoint M) Unit) := by
  induction n generalizing offset with
  | zero => exact Action.parallel_pure ()
  | succ n ih =>
    refine Together.ite ?_ (Action.parallel_pure ())
    exact (Endpoint.transmit_parallel now _ _).bind fun _ => ih _

theorem stream_parallel (now : Nat) (name : ModuleName) (source : σ) :
    Parallel (Paired R none) (stream now name source : Action FrameError (Endpoint L) Unit)
      (stream now name source : Action FrameError (Endpoint M) Unit) := by
  refine Together.ite ?_ (Action.parallel_pure ())
  refine (streamFrom_parallel now name source _ _ _ 0).bind ?_
  exact fun _ => Endpoint.flush_parallel.mapError FrameError.link

theorem handler_alike (now : Nat) :
    Station.Alike R (handler now : Station.Handler L (Registry σ)) (handler now) := by
  intro message
  simp only [handler]
  cases message.body with
  | update =>
    refine Action.together_get ?_
    rintro ⟨e, contents⟩ _ ⟨m, rfl, -⟩
    dsimp only
    cases contents.find? message.module with
    | some source => exact Endpoint.onFirst_beside (stream_parallel now message.module source)
    | none => exact Action.parallel_pure ()
  | signal => exact Action.parallel_pure ()
  | data f => exact Action.parallel_pure ()

theorem announce_parallel (now : Nat) (name : ModuleName) (hash : ContentHash) :
    Parallel (Paired R none) (announce now name hash : Action FrameError (Endpoint L) Unit)
      (announce now name hash : Action FrameError (Endpoint M) Unit) := by
  refine (Endpoint.transmit_parallel now _ _).bind ?_
  exact fun _ => Endpoint.flush_parallel.mapError FrameError.link

theorem sendUpdate_parallel (now : Nat) (name : ModuleName) :
    Parallel (Station.Paired R) (sendUpdate now name : Action ε (Server L σ) Unit)
      (sendUpdate now name : Action ε (Server M σ) Unit) := by
  refine Action.together_get ?_
  rintro s _ ⟨m, rfl, -⟩
  have hrole : (s.withLink m).role = s.role := rfl
  simp only [hrole]
  cases s.role.find? name with
  | none => exact Action.parallel_pure ()
  | some source =>
    refine Together.ite ?_ (Action.parallel_pure ())
    refine Together.bind (Station.onEndpoint_parallel (Parallel.attempt ?_)) fun _ =>
      Action.parallel_pure ()
    exact announce_parallel now name _

theorem sendUpdates_parallel (now : Nat) :
    Parallel (Station.Paired R) (sendUpdates now : Action ε (Server L σ) Unit)
      (sendUpdates now : Action ε (Server M σ) Unit) := by
  refine Action.together_get ?_
  rintro s _ ⟨m, rfl, -⟩
  exact Parallel.forM (fun name => sendUpdate_parallel now name) s.role.names

end Server

/-! ## Clients -/

namespace Client

variable {κ : Type}

theorem request_parallel (now : Nat) (name : ModuleName) (hash : ContentHash) :
    Parallel (Paired R none) (request now name hash : Action FrameError (Endpoint L) Unit)
      (request now name hash : Action FrameError (Endpoint M) Unit) := by
  refine (Endpoint.transmit_parallel now _ _).bind ?_
  exact fun _ => Endpoint.flush_parallel.mapError FrameError.link

theorem handler_alike (now : Nat) :
    Station.Alike R (handler now : Station.Handler L (Subscriptions κ)) (handler now) := by
  intro message
  refine Action.together_get ?_
  rintro ⟨e, subscriptions⟩ _ ⟨m, rfl, -⟩
  refine Together.ite ?_ (Action.parallel_pure ())
  cases message.body with
  | signal =>
    exact Endpoint.onFirst_beside (request_parallel now message.module message.contentHash)
  | data f =>
    refine Together.on ?_
    rintro ⟨e, subscriptions⟩ _ ⟨m, rfl, hm⟩
    exact .ok ⟨m, rfl, hm⟩
  | update => exact Action.parallel_pure ()

theorem requestUpdate_parallel (now : Nat) (name : ModuleName) :
    Parallel (Station.Paired R) (requestUpdate now name : Action FrameError (Client L κ) Unit)
      (requestUpdate now name : Action FrameError (Client M κ) Unit) := by
  refine Action.together_get ?_
  rintro s _ ⟨m, rfl, -⟩
  refine Together.ite ?_ (Action.parallel_pure ())
  exact Station.onEndpoint_parallel (request_parallel now name ContentHash.zero)

end Client

end RomCast
