import RomCast.Client
import RomCast.Proofs.Checked.Station
import RomCast.Proofs.Station.Memory
import RomCast.Server

set_option autoImplicit false

/-!
# How fast counters rise

A step raises a counter by as much as it sends, and takes no frames from the link (`Costs`).  The
most that one frame can cost is the streaming of the longest content, in less than 2²⁵ events.  A
poll takes these from what the frames that wait have set aside (`Saved`), so that a counter cannot
reach the end of its 64 bits before an astronomical number of frames has arrived.
-/

namespace RomCast

open Endpoint

/-- The frames that wait for an endpoint, and a bound on its counters. -/
structure Spent (frames : List Bytes) (bound : Nat) (e : OnMemory) : Prop where
  inbound : e.link.inbound = frames
  le : ∀ counter : Counter, counter.get e.counters ≤ bound

/-- A step that raises no counter of the endpoint at `part` by more than `n`, and takes no frame
from its link. -/
def Costs {ε σ α : Type} (part : σ → OnMemory) (n : Nat) (x : Action ε σ α) : Prop :=
  ∀ frames bound s, Spent frames bound (part s) → Spent frames (bound + n) (part (x.state s))

section

variable {ε ε' σ τ α β : Type} {part : σ → OnMemory} {n m : Nat}

theorem Spent.mono {frames : List Bytes} {bound bound' : Nat} {e : OnMemory}
    (h : Spent frames bound e) (hle : bound ≤ bound') : Spent frames bound' e :=
  ⟨h.inbound, fun counter => Nat.le_trans (h.le counter) hle⟩

theorem Costs.mono {x : Action ε σ α} (h : Costs part n x) (hle : n ≤ m) : Costs part m x :=
  fun frames bound s hs => (h frames bound s hs).mono (Nat.add_le_add_left hle bound)

theorem costs_pure (a : α) : Costs part n (pure a : Action ε σ α) :=
  fun _ _ _ hs => hs.mono (Nat.le_add_right _ _)

theorem costs_throw (e : ε) : Costs part n (throw e : Action ε σ α) :=
  fun _ _ _ hs => hs.mono (Nat.le_add_right _ _)

theorem costs_ofExcept (x : Except ε α) : Costs part 0 (Action.ofExcept x : Action ε σ α) := by
  cases x with
  | ok a => exact costs_pure a
  | error e => exact costs_throw e

theorem Costs.bind {x : Action ε σ α} {f : α → Action ε σ β} (hx : Costs part n x)
    (hf : ∀ a, Costs part m (f a)) : Costs part (n + m) (x >>= f) := by
  intro frames bound s hs
  have hfirst := hx frames bound s hs
  rw [← Nat.add_assoc]
  cases h : x s with
  | ok a s' =>
    rw [Action.state_of_ok h] at hfirst
    rw [Action.state_bind_of_ok h]
    exact hf a frames (bound + n) s' hfirst
  | error e s' =>
    rw [Action.state_of_error h] at hfirst
    rw [Action.state_bind_of_error h]
    exact hfirst.mono (Nat.le_add_right _ _)

/-- Behind a step that costs nothing. -/
theorem Costs.before {x : Action ε σ α} {f : α → Action ε σ β} (hx : Costs part 0 x)
    (hf : ∀ a, Costs part n (f a)) : Costs part n (x >>= f) :=
  (hx.bind hf).mono (Nat.le_of_eq (Nat.zero_add n))

/-- Before a step that costs nothing. -/
theorem Costs.after {x : Action ε σ α} {f : α → Action ε σ β} (hx : Costs part n x)
    (hf : ∀ a, Costs part 0 (f a)) : Costs part n (x >>= f) :=
  hx.bind hf

/-- A step that looks at its state first. -/
theorem costs_get_of_spent {f : σ → Action ε σ α}
    (h : ∀ s frames bound, Spent frames bound (part s) →
      Spent frames (bound + n) (part ((f s).state s))) : Costs part n (get >>= f) :=
  fun frames bound s hs => h s frames bound hs

theorem Costs.get {f : σ → Action ε σ α} (h : ∀ s, Costs part n (f s)) :
    Costs part n (MonadState.get >>= f) :=
  costs_get_of_spent fun s frames bound hs => h s frames bound s hs

theorem Costs.ite {c : Prop} [Decidable c] {x y : Action ε σ α} (hx : Costs part n x)
    (hy : Costs part n y) : Costs part n (if c then x else y) := by
  split
  · exact hx
  · exact hy

theorem Costs.attempt {x : Action ε σ α} (h : Costs part n x) :
    Costs part n (x.attempt : Action ε' σ (Except ε α)) := by
  intro frames bound s hs
  rw [Action.state_attempt]
  exact h frames bound s hs

theorem Costs.mapError {x : Action ε σ α} (h : Costs part n x) (f : ε → ε') :
    Costs part n (x.mapError f) := by
  intro frames bound s hs
  rw [Action.state_mapError]
  exact h frames bound s hs

/-- A change that leaves the frames and the counters. -/
theorem costs_modify {f : σ → σ}
    (h : ∀ s, (part (f s)).link.inbound = (part s).link.inbound ∧
      (part (f s)).counters = (part s).counters) :
    Costs part 0 (modify f : Action ε σ Unit) := by
  intro frames bound s hs
  refine ⟨(h s).1.trans hs.inbound, fun counter => ?_⟩
  show counter.get (part (f s)).counters ≤ bound
  rw [(h s).2]
  exact hs.le counter

/-- What happens beside the endpoint. -/
theorem costs_onSecond (x : Action ε τ α) :
    Costs (Prod.fst : OnMemory × τ → OnMemory) 0 x.onSecond := by
  intro frames bound s hs
  rw [Action.onSecond, Action.state_on]
  exact hs

/-- Such a change before other steps. -/
theorem costs_modify_bind {f : σ → σ} {x : Action ε σ α}
    (h : ∀ s, (part (f s)).link.inbound = (part s).link.inbound ∧
      (part (f s)).counters = (part s).counters) (hx : Costs part n x) :
    Costs part n (modify f >>= fun _ => x) :=
  (costs_modify h).before fun _ => hx

theorem Spent.ite {frames : List Bytes} {bound : Nat} {s : σ} {c : Prop} [Decidable c]
    {x y : Action ε σ α} (hx : Spent frames bound (part (x.state s)))
    (hy : Spent frames bound (part (y.state s))) :
    Spent frames bound (part ((if c then x else y).state s)) := by
  split
  · exact hx
  · exact hy

theorem Spent.ofExcept_bind {frames : List Bytes} {bound : Nat} {s : σ} {o : Except ε α}
    {f : α → Action ε σ β} (hs : Spent frames bound (part s))
    (hf : ∀ a, Spent frames bound (part ((f a).state s))) :
    Spent frames bound (part ((Action.ofExcept o >>= f).state s)) := by
  cases o with
  | ok a => exact hf a
  | error e => exact hs

theorem Spent.set_bind {frames : List Bytes} {bound : Nat} {s t : σ}
    {f : PUnit → Action ε σ β} (hf : Spent frames bound (part ((f ⟨⟩).state t))) :
    Spent frames bound (part ((set t >>= f).state s)) :=
  hf

/-- The endpoint within a larger state. -/
theorem Costs.on {x : Action ε OnMemory α} (h : Costs id n x) {put : OnMemory → τ → τ}
    {part : τ → OnMemory} (hput : ∀ e t, part (put e t) = e) :
    Costs part n (x.on part put) := by
  intro frames bound t ht
  rw [Action.state_on, hput]
  exact h frames bound (part t) ht

theorem Costs.onFirst {x : Action ε OnMemory α} (h : Costs id n x) :
    Costs (Prod.fst : OnMemory × τ → OnMemory) n x.onFirst :=
  h.on fun _ _ => rfl

end

namespace Endpoint

variable {ε α : Type}

theorem count_costs (counter : Counter) :
    Costs id 1 (count counter.bump : Action ε OnMemory Unit) := by
  intro frames bound e he
  refine ⟨he.inbound, fun other => ?_⟩
  show other.get (counter.put _ e.counters) ≤ bound + 1
  rw [Counter.get_put]
  split
  · exact Nat.succ_le_succ (he.le counter)
  · exact Nat.le_succ_of_le (he.le other)

theorem onLink_costs {x : Action ε MemoryLink α}
    (h : ∀ link, (x.state link).inbound = link.inbound) :
    Costs id 0 (onLink x : Action ε OnMemory α) := by
  intro frames bound e he
  rw [onLink, Action.state_on]
  exact ⟨(h e.link).trans he.inbound, he.le⟩

theorem process_costs :
    Costs id 0 (onLink Transport.process : Action LinkError OnMemory Unit) :=
  onLink_costs fun link => (MemoryLink.sendFronts_queued _ link).inbound

theorem drainAcks_costs : Costs id 0 (drainAcks : Action ε OnMemory Unit) :=
  costs_modify fun e => ⟨(MemoryLink.drainAcks_queued e.link).inbound, rfl⟩

theorem alloc_costs (length : Nat) :
    Costs id 0 (onLink (Transport.alloc length) : Action LinkError OnMemory Descriptor) := by
  refine onLink_costs fun link => ?_
  show (((TransmitPool.alloc length).on MemoryLink.pool _).state link).inbound = link.inbound
  rw [Action.state_on]

theorem reserveTries_costs (length tries : Nat) :
    Costs id 1 (reserveTries length tries : Action LinkError OnMemory (Option Descriptor)) := by
  induction tries with
  | zero => exact (count_costs .txDropped).after fun _ => costs_pure none
  | succ tries ih =>
    refine (alloc_costs length).attempt.before fun answer => ?_
    cases answer with
    | ok d => exact costs_pure (some d)
    | error cause =>
      cases cause with
      | exhausted => exact process_costs.before fun _ => drainAcks_costs.before fun _ => ih
      | tooLarge length => exact costs_throw _
      | failed cause => exact costs_throw _

theorem reserve_costs (length : Nat) :
    Costs id 1 (reserve length : Action LinkError OnMemory (Option Descriptor)) :=
  drainAcks_costs.before fun _ => reserveTries_costs length _

theorem submit_costs (d : Descriptor) :
    Costs id 1 (submit d : Action LinkError OnMemory Unit) := by
  have hsubmit : Costs id 1 (onLink (Transport.submit d) >>= fun _ =>
      count Counter.txFrames.bump : Action LinkError OnMemory Unit) :=
    (onLink_costs fun _ => rfl).before fun _ => count_costs .txFrames
  exact Costs.get fun e => Costs.ite hsubmit (process_costs.before fun _ => hsubmit)

theorem flush_costs : Costs id 0 (flush : Action LinkError OnMemory Unit) :=
  process_costs.before fun _ => drainAcks_costs

theorem send_costs (frame : Bytes) :
    Costs id 2 (send frame : Action FrameError OnMemory Bool) := by
  refine ((reserve_costs _).mapError FrameError.link).bind (m := 1) fun d? => ?_
  cases d? with
  | none => exact costs_pure false
  | some d =>
    refine costs_modify_bind (fun _ => ⟨rfl, rfl⟩) ?_
    exact ((submit_costs d).mapError FrameError.link).after fun _ => costs_pure true

theorem askFirst_costs (now : Nat) :
    Costs id 3 (askFirst now : Action FrameError OnMemory Unit) := by
  refine Costs.get fun e => Costs.ite (Costs.get fun e => ?_) (costs_pure _)
  cases e.resolver.target with
  | none => exact costs_pure _
  | some target =>
    refine (send_costs _).bind (m := 1) fun sent => Costs.ite ?_ (costs_pure _)
    exact costs_modify_bind (fun _ => ⟨rfl, rfl⟩) (count_costs .arpRequests)

theorem sendDatagram_costs (room : Nat) (fill : Action GuardError Writer Unit) :
    Costs id 2 (sendDatagram room fill : Action FrameError OnMemory Bool) := by
  refine ((reserve_costs _).mapError FrameError.link).bind (m := 1) fun d? => ?_
  cases d? with
  | none => exact costs_pure false
  | some d =>
    refine costs_modify_bind (fun _ => ⟨rfl, rfl⟩) (Costs.get fun e => ?_)
    refine costs_modify_bind (fun _ => ⟨rfl, rfl⟩) ?_
    cases (e.addressing.write fill).result { buffer := Transport.content e.link d } with
    | error cause => exact costs_modify_bind (fun _ => ⟨rfl, rfl⟩) (costs_throw _)
    | ok length =>
      exact ((submit_costs _).mapError FrameError.link).after fun _ => costs_pure true

theorem transmit_costs (now room : Nat) (fill : Action GuardError Writer Unit) :
    Costs id 5 (transmit now room fill : Action FrameError OnMemory Bool) :=
  (askFirst_costs now).bind fun _ => sendDatagram_costs room fill

theorem control_costs (now : Nat) (kind : PacketKind) (module : ModuleName)
    (hash : ContentHash) :
    Costs id 5 (do
      let _ ← transmit now (Header.size PacketHeader) (encodeControl kind module hash)
      flush.mapError FrameError.link : Action FrameError OnMemory Unit) :=
  (transmit_costs _ _ _).after fun _ => flush_costs.mapError _

/-! ## Frames that come in -/

theorem receiveArp_costs :
    Costs Prod.fst 3 (receiveArp : Action FrameError (OnMemory × Bytes) Unit) := by
  refine costs_get_of_spent fun s frames bound hs => ?_
  have hsame : Spent frames (bound + 3) s.1 := hs.mono (Nat.le_add_right bound 3)
  refine Spent.ofExcept_bind hsame fun arp => ?_
  refine Spent.ite hsame (Spent.ite (Spent.ite hsame ?_) (Spent.ite ?_ hsame))
  · refine Spent.set_bind ?_
    have hanswer : ∀ frame : Bytes, Costs (Prod.fst : OnMemory × Bytes → OnMemory) 3
        ((send frame).onFirst >>= fun sent => if sent then
          (count Counter.arpReplies.bump : Action FrameError OnMemory Unit).onFirst else pure ()) :=
      fun frame => (send_costs frame).onFirst.bind fun sent =>
        Costs.ite (count_costs .arpReplies).onFirst (costs_pure _)
    exact hanswer _ frames bound _ hs
  · exact ⟨hsame.inbound, hsame.le⟩

theorem receiveIpv4_costs (sender : Mac) (frame : Bytes) :
    Costs id 0 (receiveIpv4 sender frame : Action FrameError OnMemory (Option (Nat × Nat))) := by
  refine (costs_ofExcept _).before fun ip => Costs.get fun e => Costs.ite (costs_pure none) ?_
  exact costs_modify_bind (fun _ => ⟨rfl, rfl⟩) (costs_ofExcept _)

theorem dispatch_costs :
    Costs Prod.fst 3 (dispatch : Action FrameError (OnMemory × Bytes) (Option (Nat × Nat))) := by
  refine Costs.get fun s => (costs_ofExcept _).before fun ethernet => Costs.ite ?_ (Costs.ite ?_ ?_)
  · exact receiveArp_costs.after fun _ => costs_pure none
  · exact (receiveIpv4_costs _ _).onFirst.mono (Nat.zero_le 3)
  · exact costs_pure none

theorem handle_costs :
    Costs Prod.fst 5 (handle : Action FrameError (OnMemory × Bytes) (Option (Nat × Nat))) := by
  refine ((count_costs .rxFrames).onFirst.bind fun _ =>
    dispatch_costs.attempt.bind (m := 1) fun answer => ?_).mono (Nat.le_refl 5)
  cases answer with
  | ok range? =>
    cases range? with
    | some range => exact (count_costs .rxDelivered).onFirst.after fun _ => costs_pure _
    | none => exact costs_pure none
  | error cause => exact (count_costs .rxDropped).onFirst.after fun _ => costs_throw _

end Endpoint

/-! ## Roles -/

/-- How much one frame may cost: less than 2²² fragments, none of which costs more than five. -/
def frameCost : Nat := 2 ^ 25

namespace Server

variable {σ : Type} [ContentSource σ]

theorem streamFrom_costs (now : Nat) (name : ModuleName) (source : σ) (size : Nat)
    (hash : ContentHash) (n offset : Nat) :
    Costs id (5 * n)
      (streamFrom now name source size hash n offset : Action FrameError OnMemory Unit) := by
  induction n generalizing offset with
  | zero => exact costs_pure _
  | succ n ih =>
    refine Costs.ite (((transmit_costs _ _ _).bind fun _ => ih _).mono ?_) (costs_pure _)
    omega

theorem stream_costs (now : Nat) (name : ModuleName) (source : σ) :
    Costs id (5 * 2 ^ 22) (stream now name source : Action FrameError OnMemory Unit) := by
  have hmax : maxPayload = 1024 := rfl
  have hlimit : UInt32.size = 2 ^ 32 := rfl
  show Costs id _ (if ContentSource.size source < UInt32.size then _ else _)
  by_cases hsize : ContentSource.size source < UInt32.size
  · rw [if_pos hsize]
    have hcount : 5 * ((ContentSource.size source + maxPayload - 1) / maxPayload) ≤ 5 * 2 ^ 22 := by
      rw [hmax]
      omega
    exact Costs.after (Costs.mono (streamFrom_costs now name source _ _ _ 0) hcount) fun _ =>
      flush_costs.mapError _
  · rw [if_neg hsize]
    exact costs_pure _

theorem handler_costs (now : Nat) (message : Message) :
    Costs (Prod.fst : OnMemory × Registry σ → OnMemory) (5 * 2 ^ 22) (handler now message) := by
  unfold handler
  cases message.body with
  | signal => exact costs_pure _
  | data f => exact costs_pure _
  | update =>
    refine Costs.get fun s => ?_
    cases s.2.find? message.module with
    | none => exact costs_pure _
    | some source => exact (stream_costs now message.module source).onFirst

end Server

namespace Client

variable {κ : Type}

theorem handler_costs (now : Nat) (message : Message) :
    Costs (Prod.fst : OnMemory × Subscriptions κ → OnMemory) 5 (handler now message) := by
  refine Costs.get fun s => Costs.ite ?_ (costs_pure _)
  cases message.body with
  | signal => exact (control_costs now .update message.module message.contentHash).onFirst
  | update => exact costs_pure _
  | data f => exact Costs.mono (costs_onSecond _) (Nat.zero_le 5)

end Client

/-! ## Stations -/

namespace Station

variable {ρ : Type} {handler : Handler MemoryLink ρ} {bound : Nat} {s : Station MemoryLink ρ}

/-- No counter passes the bound, not even after the frames that wait. -/
def Saved (bound : Nat) (s : Station MemoryLink ρ) : Prop :=
  ∀ counter : Counter,
    counter.get s.endpoint.counters + s.endpoint.link.inbound.length * frameCost ≤ bound

/-- A handler that costs less than a frame may. -/
def Frugal (handler : Handler MemoryLink ρ) : Prop :=
  ∀ message, Costs Prod.fst (5 * 2 ^ 22) (handler message)

theorem onEndpoint_costs {ε α : Type} {n : Nat} {x : Action ε OnMemory α} (h : Costs id n x) :
    Costs Station.endpoint n (onEndpoint x : Action ε (Station MemoryLink ρ) α) :=
  h.on fun _ _ => rfl

theorem afterRead_spent {frame : Bytes} {rest : List Bytes}
    (hinbound : s.endpoint.link.inbound = frame :: rest)
    (hle : ∀ counter : Counter, counter.get s.endpoint.counters ≤ bound) :
    Spent rest (bound + 5) (afterRead s).endpoint := by
  have hread : afterRead s = ((readPacket (min frame.length s.buffer.length) :
      Action LinkError (Station MemoryLink ρ) _).state
        ⟨s.popped rest, s.role, s.buffer.overwrite 0 frame⟩) := by
    rw [afterRead, read, Action.state_bind_of_ok (receive_of_cons hinbound)]
    exact Action.state_bind_pure ..
  rw [hread, endpoint_readPacket]
  exact handle_costs rest bound _ ⟨rfl, hle⟩

/-- What is left for a step, when the frames that wait are provided for. -/
theorem Saved.le (h : Saved bound s) (counter : Counter) :
    counter.get s.endpoint.counters ≤ bound - s.endpoint.link.inbound.length * frameCost :=
  Nat.le_sub_of_add_le (h counter)

theorem Spent.saved {frames : List Bytes} (h : Spent frames bound s.endpoint) :
    Saved (bound + frames.length * frameCost) s := by
  intro counter
  rw [h.inbound]
  exact Nat.add_le_add_right (h.le counter) _

theorem Saved.mono {bound' : Nat} (h : Saved bound s) (hle : bound ≤ bound') : Saved bound' s :=
  fun counter => Nat.le_trans (h counter) hle

/-- A step that takes no frame is paid for at once. -/
theorem Saved.step {ε α : Type} {n : Nat} {x : Action ε (Station MemoryLink ρ) α}
    (hx : Costs Station.endpoint n x) (h : Saved bound s) : Saved (bound + n) (x.state s) := by
  have hspent := hx _ _ s ⟨rfl, h.le⟩
  have hfits := h .rxFrames
  refine (Spent.saved hspent).mono ?_
  omega

theorem Saved.turn (hfrugal : Frugal handler) (h : Saved bound s) :
    Saved bound ((turn handler).state s) := by
  rw [state_turn]
  cases hinbound : s.endpoint.link.inbound with
  | nil =>
    rw [packet?_of_nil hinbound, afterRead, Action.state_of_ok (read_of_nil hinbound)]
    exact h
  | cons frame rest =>
    have hread := afterRead_spent hinbound h.le
    have hcost : (rest.length + 1) * frameCost = rest.length * frameCost + 2 ^ 25 :=
      Nat.succ_mul _ _
    have hfits := h .rxFrames
    rw [hinbound, List.length_cons, hcost] at hfits hread
    cases packet? s with
    | none =>
      refine (Spent.saved hread).mono ?_
      omega
    | some message =>
      have hhandled : Spent rest _ (handled handler message (afterRead s)).endpoint :=
        hfrugal message rest _ ((afterRead s).endpoint, (afterRead s).role) hread
      refine (Spent.saved hhandled).mono ?_
      omega

theorem Saved.afterTurns (hfrugal : Frugal handler) (h : Saved bound s) (n : Nat) :
    Saved bound (afterTurns handler n s) := by
  induction n generalizing s with
  | zero => exact h
  | succ n ih => exact ih (h.turn hfrugal)

/-- Polling is paid for by the frames that wait. -/
theorem Saved.poll (hfrugal : Frugal handler) (h : Saved bound s) :
    Saved bound ((poll handler).state s) := by
  obtain ⟨turns, hend | hend⟩ := state_poll handler s
  · rw [hend]
    exact h.afterTurns hfrugal turns
  · rw [hend]
    exact Saved.step (onEndpoint_costs flush_costs) (h.afterTurns hfrugal turns)

end Station

theorem Server.sendUpdate_costs {ε σ : Type} [ContentSource σ] (now : Nat) (name : ModuleName) :
    Costs Station.endpoint 5 (sendUpdate now name : Action ε (Server MemoryLink σ) Unit) := by
  refine Costs.get fun s => ?_
  cases s.role.find? name with
  | none => exact costs_pure _
  | some source =>
    refine Costs.ite ?_ (costs_pure _)
    exact Costs.after (Station.onEndpoint_costs (control_costs now .signal name _).attempt)
      fun _ => costs_pure _

theorem Client.requestUpdate_costs {κ : Type} (now : Nat) (name : ModuleName) :
    Costs Station.endpoint 5
      (requestUpdate now name : Action FrameError (Client MemoryLink κ) Unit) :=
  Costs.get fun _ =>
    Costs.ite (Station.onEndpoint_costs (control_costs now .update name _)) (costs_pure _)

end RomCast
