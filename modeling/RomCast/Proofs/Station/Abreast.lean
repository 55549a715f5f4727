import RomCast.Client
import RomCast.Proofs.Endpoint.Abreast
import RomCast.Proofs.Message
import RomCast.Proofs.Server.Sources
import RomCast.Server

set_option autoImplicit false

/-!
# Stations abreast

What a station makes of a frame is a step of its own (`hear`): deal with the frame, hand its packet
to the role.  Stations that are abreast hear a frame alike, whatever the time is for each, provided
their roles do not look at the time, as those of servers and clients do not.
-/

namespace RomCast

open RomCast.Action (Agree Together Parallel)
open Incoming (frame? isFault frames faultless)
open Endpoint (AbreastBeside)

variable {L A ρ ε : Type} [Incoming A] [Transport L] [Conduit L A]

namespace Station

/-- Two stations of the same role on endpoints that are abreast. -/
structure Abreast (boxes : List A × List A) (s t : Station L ρ) : Prop where
  endpoint : Endpoint.Abreast boxes s.endpoint t.endpoint
  role : t.role = s.role
  buffer : t.buffer.length = s.buffer.length

/-- A role that does the same with a packet whatever the time is. -/
def Timeless (L : Type) {A : Type} [Incoming A] [Transport L] [Conduit L A]
    (handler : Nat → Handler L ρ) : Prop :=
  ∀ (now now' : Nat) (message : Message) (boxes : List A × List A),
    Parallel (AbreastBeside boxes) (handler now message) (handler now' message)

variable {boxes : List A × List A} {s t u : Station L ρ} {handler : Nat → Handler L ρ}

theorem abreast_refl (h : Conduit.Ready s.endpoint.link) :
    Abreast (Conduit.inbox s.endpoint.link, Conduit.inbox s.endpoint.link) s s :=
  ⟨Endpoint.abreast_refl h, rfl, rfl⟩

theorem Abreast.trans {first second third : List A} (h : Abreast (first, second) s t)
    (h' : Abreast (second, third) t u) : Abreast (first, third) s u :=
  ⟨h.endpoint.trans h'.endpoint, h'.role.trans h.role, h'.buffer.trans h.buffer⟩

theorem Abreast.symm (h : Abreast boxes s t) : Abreast boxes.swap t s :=
  ⟨h.endpoint.symm, h.role.symm, h.buffer.symm⟩

/-! ## Hearing a frame -/

/-- Deal with the frame of `length` bytes in the buffer, and with the packet that it carries. -/
def react (handler : Handler L ρ) (length : Nat) : Action LinkError (Station L ρ) Unit := do
  match ← readPacket length with
  | none => return ()
  | some message => dispatch handler message

/-- What a station makes of a frame that has come into its buffer. -/
def hear (handler : Handler L ρ) (frame : Bytes) : Action LinkError (Station L ρ) Unit := fun s =>
  react handler (min frame.length s.buffer.length)
    { s with buffer := s.buffer.overwrite 0 frame }

/-- A station that has heard these frames. -/
def hearAll (handler : Handler L ρ) (frames : List Bytes) (s : Station L ρ) : Station L ρ :=
  frames.foldl (fun s frame => (hear handler frame).state s) s

omit [Incoming A] [Conduit L A] in
theorem hearAll_append (handler : Handler L ρ) (first second : List Bytes) (s : Station L ρ) :
    hearAll handler (first ++ second) s = hearAll handler second (hearAll handler first s) :=
  List.foldl_append

omit [Incoming A] [Conduit L A] in
/-- Reacting to a frame does not fail: what cannot be handled is dropped. -/
theorem exists_react (handler : Handler L ρ) (length : Nat) (s : Station L ρ) :
    ∃ s', react handler length s = .ok () s' := by
  obtain ⟨packet, s₁, hread⟩ : ∃ packet s₁,
      (readPacket length : Action LinkError (Station L ρ) _) s = .ok packet s₁ := by
    unfold readPacket
    dsimp only
    split
    · exact ⟨_, _, rfl⟩
    · exact ⟨_, _, rfl⟩
    · exact ⟨_, _, rfl⟩
  unfold react
  rw [Action.bind_apply, hread]
  cases packet with
  | none => exact ⟨s₁, rfl⟩
  | some message =>
    simp only [dispatch, Action.bind_apply, Action.on, Action.attempt]
    cases handler message (s₁.endpoint, s₁.role) with
    | ok _ after => exact ⟨_, rfl⟩
    | error cause after => exact ⟨_, rfl⟩

variable [FlowingTransport L A]

/-- Two stations abreast with the same frame in their buffers. -/
def SameFrame (boxes : List A × List A) (length : Nat) (s t : Station L ρ) : Prop :=
  Abreast boxes s t ∧ t.buffer.take length = s.buffer.take length

theorem readPacket_abreast (length : Nat) :
    Together (SameFrame boxes length) (readPacket length : Action ε (Station L ρ) _)
      (readPacket length : Action ε (Station L ρ) _) (fun _ => Abreast boxes)
      (Abreast boxes) := by
  rintro s t ⟨h, hframe⟩
  have hbeside : AbreastBeside boxes (s.endpoint, s.buffer.take length)
      (t.endpoint, t.buffer.take length) := ⟨h.endpoint, hframe⟩
  have hagree := Endpoint.handle_abreast _ _ hbeside
  simp only [readPacket]
  generalize Endpoint.handle (s.endpoint, s.buffer.take length) = first at hagree ⊢
  generalize Endpoint.handle (t.endpoint, t.buffer.take length) = second at hagree ⊢
  have hafter : ∀ (e f : Endpoint L) (frame : Bytes), Endpoint.Abreast boxes e f →
      Abreast boxes { s with endpoint := e, buffer := s.buffer.overwrite 0 frame }
        { t with endpoint := f, buffer := t.buffer.overwrite 0 frame } := by
    intro e f frame hef
    refine ⟨hef, h.role, ?_⟩
    rw [Bytes.length_overwrite, Bytes.length_overwrite, h.buffer]
  cases hagree with
  | @ok range after after' related =>
    obtain ⟨e, frame⟩ := after
    obtain ⟨f, frame'⟩ := after'
    obtain ⟨hef, rfl⟩ := related
    cases range with
    | none => exact .ok (hafter e f _ hef)
    | some range => exact .ok (hafter e f _ hef)
  | @error cause after after' related =>
    obtain ⟨e, frame⟩ := after
    obtain ⟨f, frame'⟩ := after'
    obtain ⟨hef, rfl⟩ := related
    exact .ok (hafter e f _ hef)

omit [FlowingTransport L A] in
theorem dispatch_abreast (h : Timeless L handler) (now now' : Nat) (message : Message) :
    Parallel (Abreast boxes) (dispatch (handler now) message : Action ε (Station L ρ) Unit)
      (dispatch (handler now') message : Action ε (Station L ρ) Unit) := by
  refine Together.bind (Q := fun _ => Abreast boxes) (Together.on ?_) fun _ =>
    Action.parallel_pure ()
  intro s t hst
  have hattempt : Parallel (AbreastBeside boxes)
      ((handler now message).attempt : Action ε (Endpoint L × ρ) (Except FrameError Unit))
      ((handler now' message).attempt : Action ε (Endpoint L × ρ) (Except FrameError Unit)) :=
    (h now now' message boxes).attempt
  have hafter : ∀ (handled handled' : Endpoint L × ρ), AbreastBeside boxes handled handled' →
      Abreast boxes { s with endpoint := handled.1, role := handled.2 }
        { t with endpoint := handled'.1, role := handled'.2 } :=
    fun _ _ related => ⟨related.1, related.2, hst.buffer⟩
  exact (hattempt (s.endpoint, s.role) (t.endpoint, t.role) ⟨hst.endpoint, hst.role⟩).mono
    (fun _ => hafter) hafter

theorem react_abreast (h : Timeless L handler) (now now' length : Nat) :
    Together (SameFrame boxes length) (react (handler now) length : Action _ (Station L ρ) Unit)
      (react (handler now') length) (fun _ => Abreast boxes) (Abreast boxes) := by
  refine (readPacket_abreast length).bind ?_
  intro packet
  cases packet with
  | none => exact Action.parallel_pure ()
  | some message => exact dispatch_abreast h now now' message

/-- Reacting to a frame that stands in the buffer already is hearing it. -/
theorem react_hear_abreast (h : Timeless L handler) (now now' : Nat) {frame : Bytes}
    (hst : Abreast boxes s t)
    (hframe : s.buffer.take (min frame.length t.buffer.length) =
      frame.take t.buffer.length) :
    Agree (fun _ => Abreast boxes) (Abreast boxes)
      (react (handler now) (min frame.length t.buffer.length) s)
      (hear (handler now') frame t) := by
  refine react_abreast h now now' _ _ _ ⟨⟨hst.endpoint, hst.role, ?_⟩, ?_⟩
  · exact (Bytes.length_overwrite ..).trans hst.buffer
  · exact (Bytes.take_overwrite_zero t.buffer frame).trans hframe.symm

/-- A frame is heard alike, whatever stood in the buffers. -/
theorem hear_abreast (h : Timeless L handler) (now now' : Nat) (frame : Bytes) :
    Parallel (Abreast boxes) (hear (handler now) frame : Action _ (Station L ρ) Unit)
      (hear (handler now') frame) := by
  intro s t hst
  have hwritten : Abreast boxes { s with buffer := s.buffer.overwrite 0 frame } t :=
    ⟨hst.endpoint, hst.role, hst.buffer.trans (Bytes.length_overwrite ..).symm⟩
  have hframe := Bytes.take_overwrite_zero s.buffer frame
  rw [← hst.buffer] at hframe
  rw [hear, ← hst.buffer]
  exact react_hear_abreast h now now' hwritten hframe

theorem hearAll_abreast (h : Timeless L handler) (now now' : Nat) (frames : List Bytes)
    (hst : Abreast boxes s t) :
    Abreast boxes (hearAll (handler now) frames s) (hearAll (handler now') frames t) := by
  induction frames generalizing s t with
  | nil => exact hst
  | cons frame rest ih => exact ih ((hear_abreast h now now' frame).state hst)

/-! ## Receiving -/

/-- The station with something else in its inbox, and in its buffer. -/
def withInbox (items : List A) (buffer : Bytes) (s : Station L ρ) : Station L ρ :=
  { s with
    endpoint := { s.endpoint with link := Conduit.setInbox items s.endpoint.link }
    buffer }

/-- What has come in makes no difference to how stations stand. -/
theorem Abreast.withInbox {items other : List A} (h : Abreast (items, other) s t) (rest : List A)
    {buffer : Bytes} (hbuffer : buffer.length = s.buffer.length) :
    Abreast (rest, other) (s.withInbox rest buffer) t := by
  have hlinks := h.endpoint.links
  have hready := hlinks.ready
  have hpool := FlowingTransport.pool_setInbox rest s.endpoint.link
  refine ⟨⟨h.endpoint.config, h.endpoint.resolver, h.endpoint.identification, h.endpoint.counters,
    ⟨?_, ?_, FlowingTransport.flows_setInbox rest hready.flows⟩, hlinks.ready',
    FlowingTransport.inbox_setInbox rest _, hlinks.inbox', ?_, ?_⟩, h.role, h.buffer.trans
      hbuffer.symm⟩
  · show (Transport.pool (Conduit.setInbox rest s.endpoint.link)).Accounts []
    rw [hpool]
    exact hready.accounts
  · show 0 < (Transport.pool (Conduit.setInbox rest s.endpoint.link)).buffers.length
    rw [hpool]
    exact hready.buffers
  · show Conduit.pipeline t.endpoint.link = Conduit.pipeline (Conduit.setInbox rest s.endpoint.link)
    rw [hlinks.pipeline, Conduit.pipeline, Conduit.pipeline, FlowingTransport.sent_setInbox, hpool]
  · show Transport.mac t.endpoint.link = Transport.mac (Conduit.setInbox rest s.endpoint.link)
    rw [hlinks.mac, FlowingTransport.mac_setInbox]

/-- Receiving takes arrivals out of the inbox, and changes nothing else but the buffer. -/
theorem receive_receives (s : Station L ρ) : ∃ answer buffer rest,
    Receives s.buffer (Conduit.inbox s.endpoint.link) answer buffer rest ∧
      buffer.length = s.buffer.length ∧
      (receive : Action LinkError (Station L ρ) (Option Nat)) s = match answer with
        | .ok length? => .ok length? (s.withInbox rest buffer)
        | .error cause => .error cause (s.withInbox rest buffer) := by
  obtain ⟨answer, buffer, rest, hresult, hstate, hlength, hreceives⟩ :=
    FlowingTransport.receive_flows s.endpoint.link s.buffer
  refine ⟨answer, buffer, rest, hreceives, hlength, ?_⟩
  unfold receive Action.on
  unfold Action.result at hresult
  unfold Action.state at hstate
  cases hreceive : Transport.receive (s.endpoint.link, s.buffer) with
  | ok length? after =>
    rw [hreceive] at hresult hstate
    obtain rfl : after = _ := hstate
    rw [← hresult]
    rfl
  | error cause after =>
    rw [hreceive] at hresult hstate
    obtain rfl : after = _ := hstate
    rw [← hresult]
    rfl

omit [Incoming A] [Conduit L A] [FlowingTransport L A] in
/-- A turn that receives a frame reacts to it. -/
theorem turn_of_receive_some (handler : Handler L ρ) {length : Nat} {s s' : Station L ρ}
    (h : receive s = .ok (some length) s') :
    ∃ s'', react handler length s' = .ok () s'' ∧ turn handler s = .ok true s'' := by
  obtain ⟨s'', hreact⟩ := exists_react handler length s'
  refine ⟨s'', hreact, ?_⟩
  unfold react at hreact
  rw [Action.bind_apply] at hreact
  unfold turn read
  simp only [Action.bind_apply, h]
  cases hread : (readPacket length : Action LinkError (Station L ρ) _) s' with
  | error cause s₁ =>
    rw [hread] at hreact
    cases hreact
  | ok packet s₁ =>
    rw [hread] at hreact
    cases packet with
    | none =>
      cases hreact
      rfl
    | some message =>
      simp only [Action.pure_apply, Action.bind_apply] at hreact ⊢
      rw [hreact]

omit [Incoming A] [Conduit L A] [FlowingTransport L A] in
/-- A turn that receives no frame does nothing more, and is the last one. -/
theorem turn_of_receive_no_frame (handler : Handler L ρ) (answer : Except LinkError (Option Nat))
    {s s' : Station L ρ}
    (h : receive s = match answer with
      | .ok length? => .ok length? s'
      | .error cause => .error cause s')
    (hanswer : ∀ length, answer ≠ .ok (some length)) :
    (turn handler).state s = s' ∧ ∀ s'', turn handler s ≠ .ok true s'' := by
  unfold turn read
  rcases answer with cause | - | length
  · have herror : receive s = .error cause s' := h
    simp only [Action.state, Action.bind_apply, herror]
    exact ⟨trivial, nofun⟩
  · have hnone : receive s = .ok none s' := h
    simp only [Action.state, Action.bind_apply, hnone, Action.pure_apply]
    exact ⟨trivial, fun s'' hmore => nomatch hmore⟩
  · exact absurd rfl (hanswer length)

end Station

/-! ## Servers -/

namespace Server

variable [FlowingTransport L A] {σ : Type} [ContentSource σ] {boxes : List A × List A}

theorem streamFrom_abreast (now now' : Nat) (name : ModuleName) (source : σ) (n i offset : Nat)
    (hcount : i + n = sourceCount source) (hoffset : n ≠ 0 → offset = i * maxPayload) :
    Parallel (Endpoint.Abreast boxes)
      (streamFrom now name source (ContentSource.size source) (ContentSource.hash source) n
        offset : Action FrameError (Endpoint L) Unit)
      (streamFrom now' name source (ContentSource.size source) (ContentSource.hash source) n
        offset : Action FrameError (Endpoint L) Unit) := by
  induction n generalizing i offset with
  | zero => exact Action.parallel_pure ()
  | succ n ih =>
    obtain rfl : offset = i * maxPayload := hoffset (Nat.succ_ne_zero n)
    have hi : i < sourceCount source := by omega
    rw [streamFrom_succ now name source n i hi, streamFrom_succ now' name source n i hi]
    refine Together.bind (Endpoint.transmit_abreast now now' (writeFragment_fills name source i)
      (length_sourcePacket_le name source i) (room_le_maxDatagram source i)) ?_
    exact fun _ => ih (i + 1) _ (by omega) fun hn => next_start (by omega)

theorem stream_abreast (now now' : Nat) (name : ModuleName) (source : σ) :
    Parallel (Endpoint.Abreast boxes)
      (stream now name source : Action FrameError (Endpoint L) Unit)
      (stream now' name source : Action FrameError (Endpoint L) Unit) := by
  refine Together.ite ?_ (Action.parallel_pure ())
  refine (streamFrom_abreast now now' name source _ 0 0 (Nat.zero_add _)
    fun _ => (Nat.zero_mul _).symm).bind ?_
  exact fun _ => Endpoint.flush_abreast.mapError FrameError.link

theorem handler_timeless :
    Station.Timeless L (handler : Nat → Station.Handler L (Registry σ)) := by
  intro now now' message boxes
  simp only [handler]
  cases message.body with
  | update =>
    refine Action.together_get ?_
    rintro ⟨e, contents⟩ ⟨f, contents'⟩ ⟨-, hcontents⟩
    obtain rfl : contents' = contents := hcontents
    dsimp only
    cases contents'.find? message.module with
    | some source =>
      exact Endpoint.onFirst_abreast (stream_abreast now now' message.module source)
    | none => exact Action.parallel_pure ()
  | signal => exact Action.parallel_pure ()
  | data f => exact Action.parallel_pure ()

end Server

/-! ## Clients -/

namespace Client

variable [FlowingTransport L A] {κ : Type} {boxes : List A × List A}

theorem request_abreast (now now' : Nat) (name : ModuleName) (hash : ContentHash) :
    Parallel (Endpoint.Abreast boxes)
      (request now name hash : Action FrameError (Endpoint L) Unit)
      (request now' name hash : Action FrameError (Endpoint L) Unit) := by
  refine (Endpoint.transmit_abreast now now' ((encodeControl_fills .update name hash).within 100)
    (Nat.le_of_eq (length_controlPacket .update name hash)) (by decide)).bind ?_
  exact fun _ => Endpoint.flush_abreast.mapError FrameError.link

theorem handler_timeless :
    Station.Timeless L (handler : Nat → Station.Handler L (Subscriptions κ)) := by
  intro now now' message boxes
  refine Action.together_get ?_
  rintro ⟨e, subscriptions⟩ ⟨f, subscriptions'⟩ ⟨-, hsame⟩
  obtain rfl : subscriptions' = subscriptions := hsame
  refine Together.ite ?_ (Action.parallel_pure ())
  cases message.body with
  | signal =>
    exact Endpoint.onFirst_abreast
      (request_abreast now now' message.module message.contentHash)
  | data f =>
    refine Together.on ?_
    rintro ⟨e, subscriptions⟩ ⟨f, subscriptions'⟩ ⟨hef, hsame⟩
    obtain rfl : subscriptions' = subscriptions := hsame
    exact .ok ⟨hef, rfl⟩
  | update => exact Action.parallel_pure ()

end Client

end RomCast
