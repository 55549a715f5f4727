import RomCast.Proofs.Endpoint.Packets
import RomCast.Proofs.Server.Serving
import RomCast.Proofs.Station.Reading

set_option autoImplicit false

/-!
# Which packets a server submits

Over any link that is built on a pool, a server that is polled submits, frame by frame, the packets
with which it answers what the frame carries, and one that announces a content submits a signal for
it; all of this as long as nothing is dropped, and beside ARP traffic.
-/

namespace RomCast

open RomCast.Action (Keeps)
open Endpoint (SubmitsPackets submitsPackets_refl)

variable {L : Type} [Transport L] [PooledTransport L]

namespace Station

variable {ρ : Type} {s : Station (Recorded L) ρ}

/-! ## Reading -/

theorem receive_submitsPackets (h : s.endpoint.link.InCustody) :
    SubmitsPackets s.endpoint
      ((receive : Action LinkError (Station (Recorded L) ρ) (Option Nat)).state s).endpoint [] := by
  have hframes := Recorded.receive_frames s.endpoint.link s.buffer
  obtain ⟨total, e, m, hsame, hm⟩ := Endpoint.exists_watched h
  have hlink : s.endpoint.link = m := congrArg Endpoint.link hsame
  have hreceived := ((Recorded.custody (Tally.trivial L) total).receive hm s.buffer).state.2
  rw [← hlink] at hreceived
  have hcustody : (Transport.receive.state (s.endpoint.link, s.buffer)).1.InCustody :=
    Endpoint.Watched.inCustody (e := { e with link := (Transport.receive.state (e.link,
      s.buffer)).1 }) (f := { s.endpoint with link := _ }) ⟨_, by rw [hsame]; rfl, hreceived⟩
  unfold receive
  rw [Action.state_on]
  exact Endpoint.submitsPackets_nil hcustody rfl rfl hframes

theorem afterRead_submitsPackets (h : s.endpoint.link.InCustody) :
    SubmitsPackets s.endpoint (afterRead s).endpoint [] := by
  have hreceived := receive_submitsPackets h
  unfold afterRead read
  cases hreceive : (receive : Action LinkError (Station (Recorded L) ρ) (Option Nat)) s with
  | error cause s₁ =>
    rw [Action.state_of_error hreceive] at hreceived
    rw [Action.state_bind_of_error hreceive]
    exact hreceived
  | ok length? s₁ =>
    rw [Action.state_of_ok hreceive] at hreceived
    rw [Action.state_bind_of_ok hreceive]
    cases length? with
    | none => exact hreceived
    | some length =>
      rw [Action.state_bind_pure, endpoint_readPacket]
      exact hreceived.quiet (Endpoint.handle_submitsPackets _ hreceived.custody)

/-! ## Answering -/

/-- How a role that packets do not change answers them: it submits these packets. -/
structure Responds (handler : Handler (Recorded L) ρ) (answer : ρ → Message → List Bytes) :
    Prop where
  role : ∀ message f role, ((handler message).state (f, role)).2 = role
  config : KeepsConfig handler
  submits : ∀ message f role, f.link.InCustody →
    SubmitsPackets f ((handler message).state (f, role)).1 (answer role message)

/-- The packets that answer what a frame carries. -/
def answered (config : Endpoint.Config) (answer : Message → List Bytes) (frame : Bytes) :
    List Bytes :=
  ((packetIn? config frame).map answer).getD []

section Responding

variable {handler : Handler (Recorded L) ρ} {answer : ρ → Message → List Bytes}

theorem turn_submitsPackets (hresponds : Responds handler answer)
    (h : s.endpoint.link.InCustody) :
    SubmitsPackets s.endpoint ((turn handler).state s).endpoint
      (((packet? s).map (answer s.role)).getD []) := by
  have hread := afterRead_submitsPackets h
  rw [state_turn]
  cases packet? s with
  | none => exact hread
  | some message =>
    have hrole : (afterRead s).role = s.role := role_read s
    have hhandled :=
      hresponds.submits message (afterRead s).endpoint (afterRead s).role hread.custody
    rw [hrole] at hhandled
    have hboth := hread.trans hhandled
    rw [List.nil_append, ← hrole] at hboth
    rw [← hrole]
    exact hboth

omit [PooledTransport L] in
theorem packet?_of_nextFrame? {frame : Bytes} (h : nextFrame? s = some frame) :
    packet? s = packetIn? s.endpoint.config frame := by
  obtain ⟨s', hread, -⟩ := read_of_nextFrame? h
  unfold packet?
  rw [hread]
  cases packetIn? s.endpoint.config frame with
  | none => rfl
  | some message => rfl

omit [PooledTransport L] in
theorem packet?_of_nextFrame?_eq_none (h : nextFrame? s = none) : packet? s = none := by
  unfold nextFrame? at h
  unfold packet? read
  cases hreceive : (receive : Action LinkError (Station (Recorded L) ρ) (Option Nat)) s with
  | error cause s₁ => rw [Action.bind_apply, hreceive]
  | ok length? s₁ =>
    rw [hreceive] at h
    cases length? with
    | some length => cases h
    | none =>
      rw [Action.bind_apply, hreceive]
      rfl

/-- Frame by frame, what was read is answered. -/
theorem drainFrom_submitsPackets (hresponds : Responds handler answer) (n : Nat)
    (h : s.endpoint.link.InCustody) :
    SubmitsPackets s.endpoint ((drainFrom handler n).state s).endpoint
      ((framesIn handler n s).flatMap (answered s.endpoint.config (answer s.role))) := by
  induction n generalizing s with
  | zero => exact submitsPackets_refl h
  | succ n ih =>
    have hturned := turn_submitsPackets hresponds h
    unfold drainFrom framesIn
    cases hframe : nextFrame? s with
    | none =>
      rw [packet?_of_nextFrame?_eq_none hframe] at hturned
      cases hturn : turn handler s with
      | error cause s₁ =>
        rw [Action.state_of_error hturn] at hturned
        rw [Action.state_bind_of_error hturn]
        exact hturned
      | ok more s₁ =>
        cases more with
        | true => exact absurd hturn ((turn_of_nextFrame?_eq_none hframe).1 s₁)
        | false =>
          rw [Action.state_of_ok hturn] at hturned
          rw [Action.state_bind_of_ok hturn]
          exact hturned
    | some frame =>
      let unchanged : Message → ρ → ρ := fun _ role => role
      have hunchanged : ∀ message (e : Endpoint (Recorded L)) role,
          ((handler message).state (e, role)).2 = unchanged message role := hresponds.role
      obtain ⟨s₁, hturn, hconfig, hrole⟩ := turn_of_nextFrame? hresponds.config hunchanged hframe
      have hrole : s₁.role = s.role := by
        rw [hrole]
        unfold heed
        cases packetIn? s.endpoint.config frame with
        | none => rfl
        | some message => rfl
      rw [packet?_of_nextFrame? hframe, Action.state_of_ok hturn] at hturned
      have hrest := ih hturned.custody
      rw [hconfig, hrole] at hrest
      rw [Action.state_bind_of_ok hturn, if_pos rfl, Action.state_bind_pure,
        Action.state_of_ok hturn, List.flatMap_cons]
      exact hturned.trans hrest

theorem poll_submitsPackets (hresponds : Responds handler answer)
    (h : s.endpoint.link.InCustody) :
    SubmitsPackets s.endpoint ((poll handler).state s).endpoint
      ((framesPolled handler s).flatMap (answered s.endpoint.config (answer s.role))) := by
  have hdrained := drainFrom_submitsPackets hresponds (Transport.pending s.endpoint.link + 1) h
  unfold poll framesPolled
  rw [Action.state_bind_of_ok (Action.get_apply s)]
  cases hdrain : drainFrom handler (Transport.pending s.endpoint.link + 1) s with
  | error cause s₁ =>
    rw [Action.state_of_error hdrain] at hdrained
    rw [Action.state_bind_of_error hdrain]
    exact hdrained
  | ok frames s₁ =>
    rw [Action.state_of_ok hdrain] at hdrained
    rw [Action.state_bind_of_ok hdrain, Action.state_bind_pure, onEndpoint, Action.state_on]
    exact hdrained.quiet (Endpoint.flush_submitsPackets hdrained.custody)

end Responding

/-! ## Over related links -/

section Related

omit [PooledTransport L]

variable {M : Type} [Transport M] {R : LinkRelation L M} {t : Station L ρ} {t' : Station M ρ}
  {handler : Handler L ρ} {handler' : Handler M ρ}

theorem nextFrame?_paired (h : Paired R t t') : nextFrame? t' = nextFrame? t := by
  have hreceived := receive_parallel t t' h
  unfold nextFrame?
  generalize (receive : Action LinkError (Station L ρ) (Option Nat)) t = first at hreceived
  generalize (receive : Action LinkError (Station M ρ) (Option Nat)) t' = second at hreceived
  cases hreceived with
  | error related => rfl
  | @ok length? s s' related =>
    obtain ⟨m, rfl, -⟩ := related
    cases length? <;> rfl

theorem framesIn_paired (halike : Alike R handler handler') (n : Nat) (h : Paired R t t') :
    framesIn handler' n t' = framesIn handler n t := by
  induction n generalizing t t' with
  | zero => rfl
  | succ n ih =>
    unfold framesIn
    rw [nextFrame?_paired h]
    cases nextFrame? t with
    | none => rfl
    | some frame => exact congrArg (frame :: ·) (ih ((turn_parallel halike).state h))

/-- The same frames are read over related links. -/
theorem framesPolled_paired (halike : Alike R handler handler') (h : Paired R t t') :
    framesPolled handler' t' = framesPolled handler t := by
  have hpending : Transport.pending t'.endpoint.link = Transport.pending t.endpoint.link := by
    obtain ⟨m, rfl, hm⟩ := h
    exact R.pending_eq hm
  unfold framesPolled
  rw [hpending]
  exact framesIn_paired halike _ h

end Related

end Station

namespace Server

/-! ## Streaming -/

section Sources

variable {σ : Type} [ContentSource σ] {f : Endpoint (Recorded L)}

theorem streamFrom_submitsPackets (now : Nat) (name : ModuleName) (source : σ) (n i offset : Nat)
    (hcount : i + n = sourceCount source) (hoffset : n ≠ 0 → offset = i * maxPayload)
    (h : f.link.InCustody) :
    ∃ f', (streamFrom now name source (ContentSource.size source) (ContentSource.hash source) n
        offset : Action FrameError (Endpoint (Recorded L)) Unit) f = .ok () f' ∧
      SubmitsPackets f f' ((List.range' i n).map (sourcePacket name source)) := by
  induction n generalizing i offset f with
  | zero => exact ⟨f, rfl, submitsPackets_refl h⟩
  | succ n ih =>
    obtain rfl : offset = i * maxPayload := hoffset (Nat.succ_ne_zero n)
    obtain ⟨sent, f₁, hsent, hsubmits⟩ := Endpoint.transmit_submitsPackets now
      (dataOverhead + room source i) (writeFragment_fills name source i)
      (length_sourcePacket_le name source i) (room_le_maxDatagram source i) h
    obtain ⟨f', hrest, hsubmits'⟩ := ih (i + 1) (i * maxPayload + room source i) (by omega)
      (fun hn => next_start (by omega)) hsubmits.custody
    refine ⟨f', ?_, ?_⟩
    · rw [streamFrom_succ now name source n i (by omega), Action.bind_apply, hsent]
      exact hrest
    · rw [List.range'_succ, List.map_cons]
      exact hsubmits.trans hsubmits'

theorem stream_submitsPackets (now : Nat) (name : ModuleName) (source : σ)
    (h : f.link.InCustody) :
    SubmitsPackets f
      ((stream now name source : Action FrameError (Endpoint (Recorded L)) Unit).state f)
      (sourcePackets name source) := by
  unfold stream sourcePackets
  by_cases hshort : ContentSource.size source < UInt32.size
  · rw [if_pos hshort, if_pos hshort]
    obtain ⟨f₁, hstream, hsubmits⟩ := streamFrom_submitsPackets now name source
      (sourceCount source) 0 0 (Nat.zero_add _) (fun _ => (Nat.zero_mul _).symm) h
    rw [← List.range_eq_range'] at hsubmits
    have hcount : (ContentSource.size source + maxPayload - 1) / maxPayload = sourceCount source :=
      rfl
    rw [hcount, Action.state_bind_of_ok hstream, Action.state_mapError]
    exact hsubmits.quiet (Endpoint.flush_submitsPackets hsubmits.custody)
  · rw [if_neg hshort, if_neg hshort]
    exact submitsPackets_refl h

omit [PooledTransport L] in
/-- Answering leaves the configuration alone. -/
theorem handler_keepsConfig (now : Nat) :
    Station.KeepsConfig (handler now : Station.Handler L (Registry σ)) := by
  have htransmit : ∀ (config : Endpoint.Config) (room : Nat)
      (fill : Action GuardError Writer Unit),
      Keeps (fun e : Endpoint L => e.config = config) (Endpoint.transmit now room fill) :=
    fun config room fill e he => (Endpoint.transmit_knows now room fill e ⟨he, rfl⟩).1
  have hstreamFrom : ∀ (config : Endpoint.Config) (name : ModuleName) (source : σ) (size : Nat)
      (hash : ContentHash) (n offset : Nat), Keeps (fun e : Endpoint L => e.config = config)
        (streamFrom now name source size hash n offset) := by
    intro config name source size hash n
    induction n with
    | zero => exact fun offset => Action.keeps_pure _ ()
    | succ n ih =>
      exact fun offset => Keeps.ite ((htransmit config _ _).bind fun _ => ih _)
        (Action.keeps_pure _ ())
  have hflush : ∀ config : Endpoint.Config, Keeps (fun e : Endpoint L => e.config = config)
      (Endpoint.flush.mapError FrameError.link) :=
    fun config =>
      Keeps.mapError (fun e he => (Endpoint.settled_aside.flush e ⟨he, rfl⟩).1) FrameError.link
  intro message config
  unfold handler
  cases message.body with
  | signal => exact Action.keeps_pure _ ()
  | data f => exact Action.keeps_pure _ ()
  | update =>
    refine Keeps.bind (Action.keeps_get _) fun s => ?_
    cases s.2.find? message.module with
    | none => exact Action.keeps_pure _ ()
    | some source =>
      exact Keeps.on fun s hs => (Keeps.ite ((hstreamFrom config _ _ _ _ _ _).bind fun _ =>
        hflush config) (Action.keeps_pure _ ())) s.1 hs

/-- A server answers a request with the packets of what it serves, and nothing else with
anything. -/
theorem handler_responds (now : Nat) :
    Station.Responds (handler now : Station.Handler (Recorded L) (Registry σ)) reply := by
  refine ⟨handler_role now, handler_keepsConfig now, ?_⟩
  intro message f contents h
  unfold handler reply
  cases message.body with
  | signal => exact submitsPackets_refl h
  | data fragment => exact submitsPackets_refl h
  | update =>
    simp only
    rw [Action.state_bind_of_ok (Action.get_apply (f, contents))]
    cases contents.find? message.module with
    | none => exact submitsPackets_refl h
    | some source =>
      simp only
      rw [Action.state_onFirst]
      exact stream_submitsPackets now message.module source h

end Sources

/-! ## Announcing -/

variable {ε : Type}

theorem sendUpdate_submitsPackets (now : Nat) (name : ModuleName)
    (s : Server (Recorded L) Publication) (h : s.endpoint.link.InCustody) :
    let s' := (sendUpdate now name : Action ε (Server (Recorded L) Publication) Unit).state s
    s'.role = s.role ∧ SubmitsPackets s.endpoint s'.endpoint (signal s.role name) := by
  unfold sendUpdate signal
  rw [Action.state_bind_of_ok (Action.get_apply s)]
  cases s.role.find? name with
  | none => exact ⟨rfl, submitsPackets_refl h⟩
  | some p =>
    have hsize : ContentSource.size p = p.content.length := rfl
    simp only [hsize]
    by_cases hempty : p.content.length ≠ 0
    · rw [if_pos hempty, if_pos hempty]
      simp only [Action.state_bind_pure, Station.onEndpoint, Action.state_on, Action.state_attempt]
      exact ⟨trivial, Endpoint.control_submitsPackets now .signal name p.hash h⟩
    · rw [if_neg hempty, if_neg hempty]
      exact ⟨rfl, submitsPackets_refl h⟩

omit [PooledTransport L] in
/-- A failure to announce is passed over. -/
theorem exists_sendUpdate (now : Nat) (name : ModuleName) (s : Server L Publication) :
    ∃ s', (sendUpdate now name : Action ε (Server L Publication) Unit) s = .ok () s' := by
  unfold sendUpdate
  simp only [Action.bind_apply, Action.get_apply]
  cases s.role.find? name with
  | none => exact ⟨s, rfl⟩
  | some p =>
    simp only [Action.ite_apply]
    split
    · simp only [Action.bind_apply, Station.onEndpoint, Action.on, Action.attempt]
      cases announce now name (ContentSource.hash p) s.endpoint with
      | ok _ _ => exact ⟨_, rfl⟩
      | error _ _ => exact ⟨_, rfl⟩
    · exact ⟨s, rfl⟩

/-- Announcing every content submits a signal for each that is not empty. -/
theorem sendUpdates_submitsPackets (now : Nat) (s : Server (Recorded L) Publication)
    (h : s.endpoint.link.InCustody) :
    let s' := (sendUpdates now : Action ε (Server (Recorded L) Publication) Unit).state s
    s'.role = s.role ∧
      SubmitsPackets s.endpoint s'.endpoint (s.role.names.flatMap (signal s.role)) := by
  have hall : ∀ (names : List ModuleName) (s : Server (Recorded L) Publication),
      s.endpoint.link.InCustody →
      let s' := (names.forM (sendUpdate now) :
        Action ε (Server (Recorded L) Publication) Unit).state s
      s'.role = s.role ∧ SubmitsPackets s.endpoint s'.endpoint (names.flatMap (signal s.role)) := by
    intro names
    induction names with
    | nil => exact fun s h => ⟨rfl, submitsPackets_refl h⟩
    | cons name rest ih =>
      intro s h
      obtain ⟨hrole, hsubmits⟩ := sendUpdate_submitsPackets (ε := ε) now name s h
      obtain ⟨s₁, hsent⟩ := exists_sendUpdate (ε := ε) now name s
      rw [Action.state_of_ok hsent] at hrole hsubmits
      obtain ⟨hrole', hsubmits'⟩ := ih s₁ hsubmits.custody
      have hcons : ((name :: rest).forM (sendUpdate now) :
          Action ε (Server (Recorded L) Publication) Unit).state s =
            (rest.forM (sendUpdate now) :
              Action ε (Server (Recorded L) Publication) Unit).state s₁ :=
        Action.state_bind_of_ok hsent
      rw [hcons, List.flatMap_cons]
      rw [hrole] at hrole' hsubmits'
      exact ⟨hrole', hsubmits.trans hsubmits'⟩
  unfold sendUpdates
  rw [Action.state_bind_of_ok (Action.get_apply s)]
  exact hall s.role.names s h

end Server

end RomCast
