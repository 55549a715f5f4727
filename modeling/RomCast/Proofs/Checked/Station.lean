import RomCast.Proofs.Bytes.Overwrite
import RomCast.Proofs.Checked.Message
import RomCast.Proofs.Checked.Receive
import RomCast.Proofs.Station.Turn

set_option autoImplicit false

/-!
# Checked stations

Polling cuts every frame out of the receive buffer, has the endpoint check it, cuts the payload out
of the buffer again, and counts what it reads.  A role is followed as long as it keeps an invariant,
which may speak of the number of frames that were seen (`Handles`); then polling is followed.
-/

namespace RomCast

open RomCast.Checked Endpoint

/-- What was written to the front of a buffer. -/
theorem Bytes.slice_overwrite_zero {buffer new : Bytes} {start stop : Nat}
    (hnew : new.length ≤ buffer.length) (hstart : start ≤ stop) (hstop : stop ≤ new.length) :
    (buffer.overwrite 0 new).slice start stop = new.slice start stop := by
  have hrest : stop - start ≤ (new.drop start).length := by
    rw [List.length_drop]
    omega
  rw [overwrite_zero_of_le hnew, slice, slice, List.drop_append_of_le_length (by omega),
    List.take_append_of_le_length hrest]

theorem Message.trimmed_of_toOption {packet : Bytes} {message : Message}
    (h : (Message.decode packet).toOption = some message) : message.Trimmed := by
  cases hdecode : Message.decode packet with
  | ok other =>
    rw [hdecode] at h
    cases h
    exact decode_trimmed hdecode
  | error cause =>
    rw [hdecode] at h
    cases h

namespace Station

variable {ε ρ : Type}

/-- Hand a packet to the role, if there is one. -/
def respond (handler : Handler MemoryLink ρ) :
    Option Message → Action ε (Station MemoryLink ρ) Unit
  | none => return ()
  | some message => dispatch handler message

/-- Draining takes one frame after the other. -/
theorem map_drainFrom_succ (handler : Handler MemoryLink ρ) (n frames : Nat) :
    (· + frames) <$> drainFrom handler (n + 1) = (do
      match ← receive with
      | none => return frames
      | some length => do
          let packet? ← readPacket length
          respond handler packet?
          (· + (frames + 1)) <$> drainFrom handler n) := by
  simp only [drainFrom, turn, read, map_eq_pure_bind, bind_assoc]
  refine bind_congr fun length? => ?_
  cases length? with
  | none => simp
  | some length =>
    simp only [bind_assoc, pure_bind]
    refine bind_congr fun packet? => ?_
    cases packet? with
    | none => simp [respond, Nat.add_assoc, Nat.add_comm 1]
    | some message => simp [respond, Nat.add_assoc, Nat.add_comm 1]

namespace Checked

/-! ## Checked steps of a station -/

/-- How a role handles a packet, with checked steps. -/
abbrev Handler (ρ : Type) : Type := Message → Action (Trap FrameError) (OnMemory × ρ) Unit

/-- Receive the next frame into the station's buffer. -/
def receive : Action (Trap LinkError) (Station MemoryLink ρ) (Option Nat) :=
  MemoryLink.Checked.receive.on (fun s => (s.endpoint.link, s.buffer))
    fun (link, buffer) s => { s with endpoint := { s.endpoint with link }, buffer }

/-- The packet that some bytes are, if they can be read. -/
def decode? (packet : Bytes) : Action (Trap ε) (Station MemoryLink ρ) (Option Message) := do
  let decoded ← attempt (Action.ofExcept (Message.Checked.decode packet))
  return decoded.toOption

/-- Deal with the frame of `length` bytes in the buffer: the packet it carries, if it can be
read. -/
def readPacket (length : Nat) : Action (Trap ε) (Station MemoryLink ρ) (Option Message) := do
  let frame ← slice (← get).buffer 0 length
  let handled ← (attempt Endpoint.Checked.handle).on (fun s => (s.endpoint, frame))
    fun (endpoint, frame) s => { s with endpoint, buffer := s.buffer.overwrite 0 frame }
  match handled with
  | .ok (some (start, stop)) => decode? (← slice (← get).buffer start stop)
  | .ok none => return none
  | .error _ => return none

/-- Hand a packet to the role. -/
def dispatch (handler : Handler ρ) (message : Message) :
    Action (Trap ε) (Station MemoryLink ρ) Unit := do
  let handled := (attempt (handler message)).on
    (fun s : Station MemoryLink ρ => (s.endpoint, s.role))
    fun (endpoint, role) s => { s with endpoint, role }
  let _ ← handled

/-- Hand a packet to the role, if there is one. -/
def respond (handler : Handler ρ) : Option Message → Action (Trap ε) (Station MemoryLink ρ) Unit
  | none => return ()
  | some message => dispatch handler message

/-- Read at most `n` frames, until none waits; the answer is how many were read, with the `frames`
that were read before. -/
def drainFrom (handler : Handler ρ) : (n frames : Nat) →
    Action (Trap LinkError) (Station MemoryLink ρ) Nat
  | 0, frames => return frames
  | n + 1, frames => do
      match ← receive with
      | none => return frames
      | some length => do
          let frames ← tick frames
          let packet? ← readPacket length
          respond handler packet?
          drainFrom handler n frames

/-- Read every frame that waits, and send what was queued; the answer is how many were read. -/
def poll (handler : Handler ρ) : Action (Trap LinkError) (Station MemoryLink ρ) Nat := do
  let frames ← drainFrom handler (Transport.pending (← get).endpoint.link + 1) 0
  onEndpoint Endpoint.Checked.flush
  return frames

/-! ## Following -/

/-- A station that has counted past the end of a counter. -/
abbrev Full (s : Station MemoryLink ρ) : Prop := Endpoint.Full s.endpoint

/-- A station that has seen so many frames, with a sound pool, a buffer of the right length, and a
role that has `R`. -/
structure Ready (R : ρ → Prop) (seen : Nat) (s : Station MemoryLink ρ) : Prop where
  endpoint : Endpoint.Ready [] seen s.endpoint
  buffer_length : s.buffer.length = bufferSize
  role : R s.role

/-- A checked handler follows a handler while the role keeps an invariant.  The frame that the
packet came in has been counted by the endpoint already. -/
structure Handles (R : Nat → ρ → Prop) (strict : Handler ρ)
    (plain : Station.Handler MemoryLink ρ) : Prop where
  mono : ∀ seen role, R seen role → R (seen + 1) role
  follows : ∀ seen message, message.Trimmed →
    Follows (fun s => Endpoint.Full s.1) (fun s => Endpoint.Ready [] (seen + 1) s.1 ∧ R seen s.2)
      (strict message) (plain message)
      (fun _ s => Endpoint.Ready [] (seen + 1) s.1 ∧ R (seen + 1) s.2)
      fun s => Endpoint.Ready [] (seen + 1) s.1 ∧ R (seen + 1) s.2

variable {R : ρ → Prop} {seen : Nat}

theorem receive_follows :
    Follows Full (Ready R seen) receive Station.receive
      (fun length? s => Ready R seen s ∧ ∀ n, length? = some n → n ≤ bufferSize)
      (Ready R seen) :=
  MemoryLink.Checked.receive_follows.on (fun _ hs => ⟨hs.endpoint.pool, hs.buffer_length⟩)
    (fun _ _ _ hs h =>
      ⟨⟨⟨h.1.link, hs.endpoint.seen_le⟩, h.1.buffer, hs.role⟩, h.2⟩)
    (fun _ _ hs h => ⟨⟨h.link, hs.endpoint.seen_le⟩, h.buffer, hs.role⟩)
    (fun _ _ _ hnever => hnever.elim) fun _ _ _ _ hfull => hfull

theorem decode?_follows {full P : Station MemoryLink ρ → Prop} {packet : Bytes}
    (hlength : packet.length < 2 ^ 64) {E : Station MemoryLink ρ → Prop} :
    Follows full P (decode? packet : Action (Trap ε) _ _) (pure (Message.decode packet).toOption)
      (fun packet? s => P s ∧ ∀ message, packet? = some message → message.Trimmed) E := by
  have htrimmed : ∀ message, (Message.decode packet).toOption = some message → message.Trimmed :=
    fun _ => Message.trimmed_of_toOption
  rw [decode?, Message.Checked.decode_eq hlength]
  generalize Message.decode packet = decoded at htrimmed ⊢
  cases decoded with
  | ok message => exact follows_pure fun s hs => ⟨hs, htrimmed⟩
  | error cause => exact follows_pure fun s hs => ⟨hs, htrimmed⟩

/-- The endpoint beside the frame of `length` bytes in the buffer. -/
theorem Ready.facing {s : Station MemoryLink ρ} (hs : Ready R seen s) {length : Nat}
    (hlength : length ≤ bufferSize) :
    Endpoint.Checked.Facing seen length (s.endpoint, s.buffer.take length) := by
  refine ⟨hs.endpoint, ?_⟩
  rw [List.length_take, hs.buffer_length, Nat.min_eq_left hlength]

theorem readPacket_follows {length : Nat} (hlength : length ≤ bufferSize)
    {E : Station MemoryLink ρ → Prop} :
    Follows Full (Ready R seen) (readPacket length : Action (Trap ε) _ _)
      (Station.readPacket length)
      (fun packet? s => Ready R (seen + 1) s ∧ ∀ message, packet? = some message → message.Trimmed)
      E := by
  have hsize : bufferSize ≤ 65535 := by decide
  have hhandle := @Endpoint.Checked.handle_follows seen length (Nat.le_trans hlength hsize)
  constructor
  · intro s hs
    have hbeside := hhandle.beside _ (hs.facing hlength)
    obtain ⟨endpoint, role, buffer⟩ := s
    have hbuffer : buffer.length = bufferSize := hs.buffer_length
    have hslice : slice buffer 0 length = .ok (buffer.take length) :=
      slice_zero_eq (by omega)
    simp only [readPacket, Station.readPacket, Action.bind_apply, Action.get_apply, hslice,
      lift_ok_action, Action.pure_apply, Action.on, attempt]
    -- What the endpoint leaves behind, put back into the station.
    have hready : ∀ after : OnMemory × Bytes, Endpoint.Checked.Facing (seen + 1) length after →
        Ready R (seen + 1) ⟨after.1, role, buffer.overwrite 0 after.2⟩ := fun after h =>
      ⟨h.ready, by rw [Bytes.length_overwrite, hbuffer], hs.role⟩
    have hnothing : ∀ message : Message, none = some message → message.Trimmed := by
      intro message hmessage
      cases hmessage
    generalize Endpoint.Checked.handle (endpoint, buffer.take length) = strict at hbeside ⊢
    generalize Endpoint.handle (endpoint, buffer.take length) = plain at hbeside ⊢
    cases hbeside with
    | @ok range? s' after =>
      obtain ⟨e, frame⟩ := s'
      obtain ⟨hfacing, hinside⟩ := after
      cases range? with
      | none => exact .ok ⟨hready _ hfacing, hnothing⟩
      | some range =>
        obtain ⟨start, stop⟩ := range
        obtain ⟨hstart, hstop⟩ : start ≤ stop ∧ stop ≤ length := hinside _ rfl
        have hframe : frame.length = length := hfacing.length_eq
        have hpacket : slice (buffer.overwrite 0 frame) start stop =
            .ok (frame.slice start stop) := by
          rw [slice_eq hstart (by rw [Bytes.length_overwrite]; omega),
            Bytes.slice_overwrite_zero (by omega) hstart (by omega)]
        have hlong : (frame.slice start stop).length < 2 ^ 64 := by
          refine Nat.lt_of_le_of_lt (List.length_take_le ..) ?_
          omega
        simp only [Action.bind_apply, Action.get_apply, hpacket, lift_ok_action, Action.pure_apply]
        exact (decode?_follows hlong).beside _ (hready _ hfacing)
    | @error cause s' after =>
      obtain ⟨e, frame⟩ := s'
      exact .ok ⟨hready _ after, hnothing⟩
    | @stoppedOk range? s' t after passed =>
      obtain ⟨e, frame⟩ := s'
      cases range? with
      | none => exact .stoppedOk ⟨hready _ after.1, hnothing⟩ passed
      | some range =>
        exact .stoppedOk ⟨hready _ after.1, fun message => Message.trimmed_of_toOption⟩ passed
    | @stoppedError cause s' t after passed =>
      obtain ⟨e, frame⟩ := s'
      exact .stoppedOk ⟨hready _ after, hnothing⟩ passed
  · intro s hs hfull
    show Endpoint.Full _
    rw [endpoint_readPacket]
    exact hhandle.keeps _ (hs.facing hlength) hfull

/-- A frame too many for the counter of frames. -/
theorem readPacket_full {length : Nat} (hlength : length ≤ bufferSize) {s : Station MemoryLink ρ}
    (hs : Ready R seen s) (hlast : 2 ^ 64 ≤ seen + 1) :
    Full ((Station.readPacket length : Action ε _ _).state s) := by
  have hsize : bufferSize ≤ 65535 := by decide
  show Endpoint.Full _
  rw [endpoint_readPacket]
  exact Endpoint.Checked.handle_full (Nat.le_trans hlength hsize) (hs.facing hlength)
    (Nat.le_trans hlast (Nat.succ_le_succ hs.endpoint.seen_le))

variable {R : Nat → ρ → Prop} {strict : Handler ρ} {plain : Station.Handler MemoryLink ρ}

theorem respond_follows (h : Handles R strict plain) (packet? : Option Message)
    {E : Station MemoryLink ρ → Prop} :
    Follows Full (fun s => Ready (R seen) (seen + 1) s ∧
        ∀ message, packet? = some message → message.Trimmed)
      (respond strict packet? : Action (Trap ε) (Station MemoryLink ρ) Unit)
      (Station.respond plain packet?) (fun _ => Ready (R (seen + 1)) (seen + 1)) E := by
  refine follows_of_and_right fun htrimmed => ?_
  cases packet? with
  | none =>
    exact follows_pure fun s hs => ⟨hs.endpoint, hs.buffer_length, h.mono seen s.role hs.role⟩
  | some message =>
    have hhandled : Follows (fun s : OnMemory × ρ => Endpoint.Full s.1)
        (fun s => Endpoint.Ready [] (seen + 1) s.1 ∧ R seen s.2)
        (attempt (strict message) : Action (Trap ε) (OnMemory × ρ) (Except FrameError Unit))
        (plain message).attempt
        (fun _ s => Endpoint.Ready [] (seen + 1) s.1 ∧ R (seen + 1) s.2) fun _ => False :=
      (h.follows seen message (htrimmed message rfl)).attempt (fun _ _ hs => hs) fun _ _ hs => hs
    have hdispatch : Follows Full (Ready (R seen) (seen + 1))
        ((attempt (strict message) : Action (Trap ε) (OnMemory × ρ) (Except FrameError Unit)).on
          (fun s : Station MemoryLink ρ => (s.endpoint, s.role))
          fun (endpoint, role) s => { s with endpoint, role })
        ((plain message).attempt.on (fun s : Station MemoryLink ρ => (s.endpoint, s.role))
          fun (endpoint, role) s => { s with endpoint, role })
        (fun _ => Ready (R (seen + 1)) (seen + 1)) E :=
      hhandled.on (fun s hs => ⟨hs.endpoint, hs.role⟩)
        (fun _ _ s hs after => ⟨after.1, hs.buffer_length, after.2⟩) (fun _ _ _ h => h.elim)
        (fun _ _ _ hfull => hfull) fun _ _ _ hkeeps hfull => hkeeps hfull
    exact hdispatch.bind fun _ => follows_pure fun _ hs => hs

/-- A station between two calls. -/
def Idle (R : Nat → ρ → Prop) (s : Station MemoryLink ρ) : Prop := ∃ seen, Ready (R seen) seen s

/-- The frames of one call are counted, which never goes beyond the frames that were ever seen. -/
theorem drainFrom_follows (h : Handles R strict plain) (n : Nat) {seen frames : Nat}
    (hframes : frames ≤ seen) :
    Follows Full (Ready (R seen) seen) (drainFrom strict n frames)
      ((· + frames) <$> Station.drainFrom plain n) (fun _ => Idle R) (Idle R) := by
  induction n generalizing seen frames with
  | zero =>
    have hzero : (· + frames) <$> Station.drainFrom plain 0 = pure frames := by
      simp [Station.drainFrom]
    rw [hzero]
    exact follows_pure fun s hs => ⟨seen, hs⟩
  | succ n ih =>
    rw [map_drainFrom_succ]
    have hreceive : Follows Full (Ready (R seen) seen) receive Station.receive
        (fun length? s => Ready (R seen) seen s ∧ ∀ n, length? = some n → n ≤ bufferSize)
        (Idle R) :=
      receive_follows.mono (fun _ hs => hs) (fun _ _ hs => hs) fun s hs => ⟨seen, hs⟩
    refine hreceive.bind fun length? => follows_of_and_right fun hlength => ?_
    cases length? with
    | none => exact follows_pure fun s hs => ⟨seen, hs⟩
    | some length =>
      have hfits : length ≤ bufferSize := hlength length rfl
      have hrest : ∀ packet?, Follows Full _
          (respond strict packet? >>= fun _ => drainFrom strict n (frames + 1))
          (Station.respond plain packet? >>= fun _ =>
            (· + (frames + 1)) <$> Station.drainFrom plain n)
          (fun _ => Idle R) (Idle R) :=
        fun packet? => (respond_follows h packet?).bind fun _ => ih (Nat.succ_le_succ hframes)
      refine follows_tick ((readPacket_follows hfits).bind hrest) fun hlast s hs => ?_
      exact (readPacket_follows hfits).full_bind hrest hs
        (readPacket_full hfits hs (Nat.le_trans hlast (Nat.succ_le_succ hframes)))

/-- A step of the endpoint that leaves it sound. -/
theorem onEndpoint_follows {α : Type} {x : Action (Trap ε) OnMemory α} {y : Action ε OnMemory α}
    (h : ∀ seen, Follows Endpoint.Full (Endpoint.Ready [] seen) x y
      (fun _ => Endpoint.Ready [] seen) (Endpoint.Ready [] seen)) :
    Follows Full (Idle R) (onEndpoint x) (onEndpoint y) (fun _ => Idle R) (Idle R) := by
  refine follows_of_exists fun seen => ?_
  exact (h seen).on (fun _ hs => hs.endpoint)
    (fun _ _ _ hs he => ⟨seen, he, hs.buffer_length, hs.role⟩)
    (fun _ _ hs he => ⟨seen, he, hs.buffer_length, hs.role⟩) (fun _ _ _ hfull => hfull)
    fun _ _ _ hkeeps hfull => hkeeps hfull

/-- Polling with checked steps is followed, whatever is in the frames that wait. -/
theorem poll_follows (h : Handles R strict plain) :
    Follows Full (Idle R) (poll strict) (Station.poll plain) (fun _ => Idle R) (Idle R) := by
  refine follows_get fun s hs => ?_
  obtain ⟨seen, hs⟩ := hs
  have hdrain := drainFrom_follows h (Transport.pending s.endpoint.link + 1) (Nat.zero_le seen)
  have hnone : (· + 0) <$> Station.drainFrom plain (Transport.pending s.endpoint.link + 1) =
      Station.drainFrom plain (Transport.pending s.endpoint.link + 1) := id_map _
  rw [hnone] at hdrain
  refine Follows.bind (hdrain.mono (fun _ hsame => hsame ▸ hs) (fun _ _ h => h) fun _ h => h)
    fun frames => ?_
  exact (onEndpoint_follows fun _ => Endpoint.Checked.flush_follows).bind fun _ =>
    follows_pure fun _ hs => hs

end Checked

end Station

end RomCast
