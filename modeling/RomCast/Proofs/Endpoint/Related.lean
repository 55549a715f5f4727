import RomCast.Endpoint.Receive
import RomCast.Proofs.Link.Related

set_option autoImplicit false

/-!
# Endpoints over links that answer alike

An endpoint does the same over related links, and leaves related links behind: no buffer is in use
when an operation has ended, however it ended (`Operation.apply_paired`).
-/

namespace RomCast.Endpoint

open RomCast.Action (Agree Together Parallel)

/-- The same endpoint over another link. -/
def withLink {L M : Type} (e : Endpoint L) (link : M) : Endpoint M where
  link := link
  config := e.config
  resolver := e.resolver
  identification := e.identification
  counters := e.counters

variable {L M : Type} [Transport L] [Transport M] {ε : Type}

/-- An endpoint, and the same one over a related link. -/
def Paired (R : LinkRelation L M) (held : Option Descriptor) (e : Endpoint L) (f : Endpoint M) :
    Prop :=
  ∃ m, f = e.withLink m ∧ R.Related held e.counters.txFrames e.link m

/-- Two paired endpoints beside the same thing: a frame, or the role of a station. -/
def Beside {γ : Type} (R : LinkRelation L M) (s : Endpoint L × γ) (t : Endpoint M × γ) : Prop :=
  ∃ m, t = (s.1.withLink m, s.2) ∧ R.Related none s.1.counters.txFrames s.1.link m

variable {R : LinkRelation L M}

/-! ## Buffers -/

theorem count_parallel {held : Option Descriptor} {f : Counters → Counters}
    (hf : ∀ c, (f c).txFrames = c.txFrames) :
    Parallel (Paired R held) (count f : Action ε (Endpoint L) Unit)
      (count f : Action ε (Endpoint M) Unit) := by
  refine Action.together_modify ?_
  rintro e _ ⟨m, rfl, hm⟩
  refine ⟨m, rfl, ?_⟩
  show R.Related held (f e.counters).txFrames e.link m
  rw [hf]
  exact hm

theorem drainAcks_parallel :
    Parallel (Paired R none) (drainAcks : Action ε (Endpoint L) Unit)
      (drainAcks : Action ε (Endpoint M) Unit) := by
  refine Action.together_modify ?_
  rintro e _ ⟨m, rfl, hm⟩
  exact ⟨Transport.drainAcks m, rfl, LinkRelation.drainAcks hm⟩

theorem process_parallel (held : Option Descriptor) :
    Parallel (Paired R held)
      (onLink (Transport.process : Action LinkError L Unit) : Action LinkError (Endpoint L) Unit)
      (onLink (Transport.process : Action LinkError M Unit) :
        Action LinkError (Endpoint M) Unit) := by
  refine Together.on ?_
  rintro e _ ⟨m, rfl, hm⟩
  obtain ⟨l', m', hl, hm', hrelated⟩ := R.process hm
  show Agree _ _ (Transport.process e.link) (Transport.process m)
  rw [hl, hm']
  exact .ok ⟨m', rfl, hrelated⟩

theorem reserveTries_together (length tries : Nat) :
    Together (Paired R none) (reserveTries length tries : Action LinkError (Endpoint L) _)
      (reserveTries length tries : Action LinkError (Endpoint M) _) (Paired R) (Paired R none) := by
  induction tries with
  | zero =>
    refine Together.bind (count_parallel fun _ => rfl) ?_
    intro _
    exact Action.together_pure fun _ _ h => h
  | succ tries ih =>
    have halloc : Together (Paired R none)
        ((onLink (Transport.alloc length)).attempt : Action LinkError (Endpoint L) _)
        ((onLink (Transport.alloc length)).attempt : Action LinkError (Endpoint M) _)
        (fun answer => Paired R answer.toOption) (Paired R none) := by
      refine Together.attempt (Q := fun d => Paired R (some d)) (E := Paired R none) ?_
        (fun _ _ _ h => h) fun _ _ _ h => h
      refine Together.on ?_
      rintro e _ ⟨m, rfl, hm⟩
      exact (R.alloc hm length).mono (fun _ _ m' hm' => ⟨m', rfl, hm'⟩)
        fun _ m' hm' => ⟨m', rfl, hm'⟩
    refine halloc.bind ?_
    intro answer
    cases answer with
    | ok d => exact Action.together_pure fun _ _ h => h
    | error cause =>
      cases cause with
      | exhausted => exact (process_parallel none).bind fun _ => drainAcks_parallel.bind fun _ => ih
      | tooLarge n => exact Action.together_throw fun _ _ h => h
      | failed cause => exact Action.together_throw fun _ _ h => h

/-- Whoever gets a buffer holds it from then on. -/
theorem reserve_together (length : Nat) :
    Together (Paired R none) (reserve length : Action LinkError (Endpoint L) _)
      (reserve length : Action LinkError (Endpoint M) _) (Paired R) (Paired R none) :=
  drainAcks_parallel.bind fun _ => reserveTries_together length (maxAllocRetries + 1)

/-- Submitting a buffer ends its use. -/
theorem submit_together (d : Descriptor) :
    Together (Paired R (some d)) (submit d : Action LinkError (Endpoint L) Unit)
      (submit d : Action LinkError (Endpoint M) Unit) (fun _ => Paired R none)
      (Paired R none) := by
  rintro e _ ⟨m, rfl, hm⟩
  have hready : Transport.ready m = Transport.ready e.link := R.ready_eq hm
  unfold submit
  cases h : Transport.ready e.link with
  | true =>
    obtain ⟨l', m', hl, hm', hrelated⟩ := R.submit hm
    simp only [Action.bind_apply, Action.get_apply, withLink, hready, h, if_true, onLink, Action.on,
      hl, hm']
    exact .ok ⟨m', rfl, hrelated⟩
  | false =>
    obtain ⟨l₁, m₁, hl₁, hm₁, hsent⟩ := R.process hm
    obtain ⟨l', m', hl, hm', hrelated⟩ := R.submit hsent
    simp only [Action.bind_apply, Action.get_apply, withLink, hready, h, Bool.false_eq_true,
      if_false, onLink, Action.on, hl₁, hm₁, hl, hm']
    exact .ok ⟨m', rfl, hrelated⟩

theorem flush_parallel :
    Parallel (Paired R none) (flush : Action LinkError (Endpoint L) Unit)
      (flush : Action LinkError (Endpoint M) Unit) :=
  (process_parallel none).bind fun _ => drainAcks_parallel

theorem store_together (d : Descriptor) (bytes : Bytes)
    {E : Endpoint L → Endpoint M → Prop} :
    Together (Paired R (some d))
      (modify fun e : Endpoint L => { e with link := Transport.store e.link d bytes } :
        Action ε (Endpoint L) Unit)
      (modify fun e : Endpoint M => { e with link := Transport.store e.link d bytes } :
        Action ε (Endpoint M) Unit) (fun _ => Paired R (some d)) E := by
  refine Action.together_modify ?_
  rintro e _ ⟨m, rfl, hm⟩
  exact ⟨Transport.store m d bytes, rfl, R.store hm bytes⟩

/-! ## Frames -/

theorem send_parallel (frame : Bytes) :
    Parallel (Paired R none) (send frame : Action FrameError (Endpoint L) Bool)
      (send frame : Action FrameError (Endpoint M) Bool) := by
  refine Together.bind ((reserve_together frame.length).mapError FrameError.link) ?_
  intro d?
  cases d? with
  | none => exact Action.together_pure fun _ _ h => h
  | some d =>
    refine Together.bind (store_together d frame) ?_
    intro _
    refine Together.bind ((submit_together d).mapError FrameError.link) ?_
    exact fun _ => Action.parallel_pure true

/-- Asking for the peer's address takes note of the question only when it was sent. -/
theorem sendRequest_parallel (now : Nat) :
    Parallel (Paired R none) (sendRequest now : Action FrameError (Endpoint L) Unit)
      (sendRequest now : Action FrameError (Endpoint M) Unit) := by
  refine Action.together_get ?_
  rintro e _ ⟨m, rfl, hm⟩
  have htarget : (e.withLink m).resolver.target = e.resolver.target := rfl
  have hframe : ∀ target, requestFrame (Transport.mac (e.withLink m).link)
      (e.withLink m).sourceAddress target =
        requestFrame (Transport.mac e.link) e.sourceAddress target := by
    intro target
    show requestFrame (Transport.mac m) _ _ = _
    rw [R.mac_eq hm]
    rfl
  simp only [htarget, hframe]
  cases e.resolver.target with
  | none => exact Action.parallel_pure ()
  | some target =>
    refine (send_parallel _).bind ?_
    intro sent
    refine Together.ite ?_ (Action.parallel_pure ())
    refine Together.bind (Q := fun _ => Paired R none) (E := Paired R none) ?_ fun _ =>
      count_parallel fun _ => rfl
    refine Action.together_modify ?_
    rintro e _ ⟨m, rfl, hm⟩
    exact ⟨m, rfl, hm⟩

theorem pollTimers_parallel (now : Nat) :
    Parallel (Paired R none) (pollTimers now : Action FrameError (Endpoint L) Unit)
      (pollTimers now : Action FrameError (Endpoint M) Unit) := by
  refine Action.together_get ?_
  rintro e _ ⟨m, rfl, hm⟩
  have hpoll : (e.withLink m).resolver.poll now = e.resolver.poll now := rfl
  simp only [hpoll]
  refine Together.bind (Q := fun _ => Paired R none) (E := Paired R none) ?_ ?_
  · refine Action.together_modify ?_
    rintro e _ ⟨m, rfl, hm⟩
    exact ⟨m, rfl, hm⟩
  · intro _
    exact Together.ite (sendRequest_parallel now) (Action.parallel_pure ())

theorem askFirst_parallel (now : Nat) :
    Parallel (Paired R none) (askFirst now : Action FrameError (Endpoint L) Unit)
      (askFirst now : Action FrameError (Endpoint M) Unit) := by
  refine Action.together_get ?_
  rintro e _ ⟨m, rfl, hm⟩
  exact Together.ite (sendRequest_parallel now) (Action.parallel_pure ())

/-! ## Datagrams -/

/-- Whatever `fill` does, the buffer is submitted or goes back. -/
theorem sendDatagram_parallel (room : Nat) (fill : Action GuardError Writer Unit) :
    Parallel (Paired R none) (sendDatagram room fill : Action FrameError (Endpoint L) Bool)
      (sendDatagram room fill : Action FrameError (Endpoint M) Bool) := by
  refine Together.bind ((reserve_together _).mapError FrameError.link) ?_
  intro d?
  cases d? with
  | none => exact Action.together_pure fun _ _ h => h
  | some d =>
    refine Together.bind (Q := fun _ => Paired R (some d)) (E := Paired R none) ?_ ?_
    · refine Action.together_modify ?_
      rintro e _ ⟨m, rfl, hm⟩
      exact ⟨m, rfl, hm⟩
    intro _
    refine Action.together_get ?_
    rintro e _ ⟨m, rfl, hm⟩
    have haddressing : (e.withLink m).addressing = e.addressing := by
      show ({ e.addressing with sourceMac := Transport.mac m } : Addressing) = e.addressing
      rw [R.mac_eq hm]
      rfl
    have hcontent : Transport.content (e.withLink m).link d = Transport.content e.link d :=
      LinkRelation.content_eq hm d
    simp only [haddressing, hcontent]
    refine Together.bind (store_together d _) ?_
    intro _
    cases (e.addressing.write fill).result { buffer := Transport.content e.link d } with
    | error cause =>
      refine Together.bind (Q := fun _ => Paired R none) (E := Paired R none) ?_ fun _ =>
        Action.parallel_throw _
      refine Action.together_modify ?_
      rintro e _ ⟨m, rfl, hm⟩
      exact ⟨Transport.release m d, rfl, R.release hm⟩
    | ok length =>
      have hsubmit : Together (Paired R (some d))
          ((submit (d.truncate length)).mapError FrameError.link : Action FrameError (Endpoint L) _)
          ((submit (d.truncate length)).mapError FrameError.link : Action FrameError (Endpoint M) _)
          (fun _ => Paired R none) (Paired R none) := by
        refine Together.mapError ?_ FrameError.link
        rintro e _ ⟨m, rfl, hm⟩
        exact submit_together (d.truncate length) e _ ⟨m, rfl, R.truncate hm length⟩
      exact hsubmit.bind fun _ => Action.parallel_pure true

theorem transmit_parallel (now room : Nat) (fill : Action GuardError Writer Unit) :
    Parallel (Paired R none) (transmit now room fill : Action FrameError (Endpoint L) Bool)
      (transmit now room fill : Action FrameError (Endpoint M) Bool) :=
  (askFirst_parallel now).bind fun _ => sendDatagram_parallel room fill

/-! ## Inbound frames -/

theorem onFirst_beside {α γ : Type} {x : Action ε (Endpoint L) α} {y : Action ε (Endpoint M) α}
    (h : Parallel (Paired R none) x y) :
    Parallel (Beside R : Endpoint L × γ → Endpoint M × γ → Prop) x.onFirst y.onFirst := by
  refine Together.on ?_
  rintro ⟨e, thing⟩ _ ⟨m, rfl, hm⟩
  have hbeside : ∀ e' f', Paired R none e' f' → Beside R (e', thing) (f', thing) := by
    rintro e' _ ⟨m', rfl, hm'⟩
    exact ⟨m', rfl, hm'⟩
  exact (h e (e.withLink m) ⟨m, rfl, hm⟩).mono (fun _ => hbeside) hbeside

theorem receiveIpv4_parallel (sender : Mac) (frame : Bytes) :
    Parallel (Paired R none)
      (receiveIpv4 sender frame : Action FrameError (Endpoint L) (Option (Nat × Nat)))
      (receiveIpv4 sender frame : Action FrameError (Endpoint M) (Option (Nat × Nat))) := by
  refine Together.bind (Action.parallel_ofExcept _) ?_
  intro ip
  refine Action.together_get ?_
  rintro e _ ⟨m, rfl, hm⟩
  refine Together.ite (Action.parallel_pure none) ?_
  refine Together.bind (Q := fun _ => Paired R none) (E := Paired R none) ?_ fun _ =>
    Action.parallel_ofExcept _
  refine Action.together_modify ?_
  rintro e _ ⟨m, rfl, hm⟩
  exact ⟨m, rfl, hm⟩

/-- A question is answered over both links with the same hardware address. -/
theorem receiveArp_parallel :
    Parallel (Beside R) (receiveArp : Action FrameError (Endpoint L × Bytes) Unit)
      (receiveArp : Action FrameError (Endpoint M × Bytes) Unit) := by
  refine Action.together_get ?_
  rintro ⟨e, frame⟩ _ ⟨m, rfl, hm⟩
  refine Together.bind (Action.parallel_ofExcept _) ?_
  intro arp
  refine Together.ite (Action.parallel_pure ()) ?_
  refine Together.ite ?_ ?_
  · refine Together.ite (Action.parallel_pure ()) ?_
    have hmac : Transport.mac (e.withLink m).link = Transport.mac e.link := R.mac_eq hm
    simp only [hmac]
    refine Together.bind (Q := fun _ => Beside R) (E := Beside R)
      (Action.together_set ⟨m, rfl, hm⟩) ?_
    intro _
    refine Together.bind (onFirst_beside (send_parallel _)) ?_
    intro sent
    exact Together.ite (onFirst_beside (count_parallel fun _ => rfl)) (Action.parallel_pure ())
  · exact Together.ite (Action.together_set ⟨m, rfl, hm⟩) (Action.parallel_pure ())

theorem dispatch_parallel :
    Parallel (Beside R) (dispatch : Action FrameError (Endpoint L × Bytes) (Option (Nat × Nat)))
      (dispatch : Action FrameError (Endpoint M × Bytes) (Option (Nat × Nat))) := by
  refine Action.together_get ?_
  rintro ⟨e, frame⟩ _ ⟨m, rfl, -⟩
  refine Together.bind (Action.parallel_ofExcept _) ?_
  intro ethernet
  refine Together.ite ?_ (Together.ite ?_ (Action.parallel_pure none))
  · exact receiveArp_parallel.bind fun _ => Action.parallel_pure none
  · exact onFirst_beside (receiveIpv4_parallel ethernet.source frame)

theorem handle_parallel :
    Parallel (Beside R) (handle : Action FrameError (Endpoint L × Bytes) (Option (Nat × Nat)))
      (handle : Action FrameError (Endpoint M × Bytes) (Option (Nat × Nat))) := by
  refine Together.bind (onFirst_beside (count_parallel fun _ => rfl)) ?_
  intro _
  refine Together.bind (Parallel.attempt dispatch_parallel) ?_
  intro answer
  rcases answer with cause | _ | range
  · refine Together.bind (onFirst_beside (count_parallel fun _ => rfl)) ?_
    exact fun _ => Action.parallel_throw cause
  · exact Action.parallel_pure none
  · refine Together.bind (onFirst_beside (count_parallel fun _ => rfl)) ?_
    exact fun _ => Action.parallel_pure (some range)

/-! ## Operations -/

/-- Something that is asked of an endpoint. -/
inductive Operation where
  /-- Send a datagram of at most `room` bytes; what writes it may fail. -/
  | transmit (now room : Nat) (fill : Action GuardError Writer Unit)
  /-- Send a whole frame. -/
  | send (frame : Bytes)
  | flush
  | pollTimers (now : Nat)
  /-- Deal with a frame that came in. -/
  | handle (frame : Bytes)
  /-- Take the next frame off the link, into this buffer. -/
  | receive (buffer : Bytes)

/-- The endpoint after an operation, whether it failed or not. -/
def Operation.apply : Operation → Endpoint L → Endpoint L
  | transmit now room fill => (Endpoint.transmit now room fill).state
  | send frame => (Endpoint.send frame).state
  | flush => Endpoint.flush.state
  | pollTimers now => (Endpoint.pollTimers now).state
  | handle frame => fun e => ((Endpoint.handle).state (e, frame)).1
  | receive buffer => fun e => { e with link := (Transport.receive.state (e.link, buffer)).1 }

/-- When an operation has ended, no buffer is in use. -/
theorem Operation.apply_paired (operation : Operation) {e : Endpoint L} {f : Endpoint M}
    (h : Paired R none e f) : Paired R none (operation.apply e) (operation.apply f) := by
  cases operation with
  | transmit now room fill => exact (transmit_parallel now room fill).state h
  | send frame => exact (send_parallel frame).state h
  | flush => exact flush_parallel.state h
  | pollTimers now => exact (pollTimers_parallel now).state h
  | handle frame =>
    obtain ⟨m, rfl, hm⟩ := h
    obtain ⟨m', hstate, hm'⟩ := handle_parallel.state (P := Beside R) (s := (e, frame))
      (t := (e.withLink m, frame)) ⟨m, rfl, hm⟩
    exact ⟨m', congrArg Prod.fst hstate, hm'⟩
  | receive buffer =>
    obtain ⟨m, rfl, hm⟩ := h
    exact ⟨_, rfl, (R.receive hm buffer).state.2⟩

end RomCast.Endpoint
