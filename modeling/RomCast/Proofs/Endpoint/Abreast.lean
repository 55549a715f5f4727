import RomCast.Endpoint.Receive
import RomCast.Proofs.Action
import RomCast.Proofs.Endpoint.Flowing

set_option autoImplicit false

/-!
# Endpoints abreast

Two endpoints on links that flow are abreast when they are set up the same, have counted the same,
have come equally far in resolving their peers, and have the same frames in their pipelines.  How
many of these frames are on the wire already, which buffers they stand in, what has come in, and
when a question was asked, may differ.  Endpoints that are abreast do the same, at whatever times,
and are abreast afterwards; flushing one of them makes no difference.
-/

namespace RomCast

open RomCast.Action (Agree Together Parallel)
open Conduit (Ready Flowed)

namespace Resolver

/-- A resolution without the time of its last question. -/
def timeless (r : Resolver) : Resolver :=
  { r with state := match r.state with
      | .awaiting attempts _ => .awaiting attempts 0
      | state => state }

variable (r : Resolver)

theorem peerMac_timeless : r.timeless.peerMac = r.peerMac := by
  obtain ⟨target, state, interval, maxAttempts⟩ := r
  cases state <;> rfl

theorem needsRequest_timeless : r.timeless.needsRequest = r.needsRequest := by
  obtain ⟨target, state, interval, maxAttempts⟩ := r
  cases state <;> rfl

theorem timeless_requestSent (now : Nat) :
    (r.requestSent now).timeless = r.timeless.requestSent 0 := by
  obtain ⟨target, state, interval, maxAttempts⟩ := r
  cases state <;> rfl

theorem timeless_learn (ip : Ipv4Address) (mac : Mac) :
    (r.learn ip mac).2.timeless = (r.timeless.learn ip mac).2 := by
  obtain ⟨target, state, interval, maxAttempts⟩ := r
  unfold learn timeless
  cases state with
  | idle => dsimp only; split <;> rfl
  | awaiting attempts lastSent => dsimp only; split <;> rfl
  | resolved known => rfl

theorem timeless_handleReply (ip : Ipv4Address) (mac : Mac) :
    (r.handleReply ip mac).2.timeless = (r.timeless.handleReply ip mac).2 := by
  obtain ⟨target, state, interval, maxAttempts⟩ := r
  unfold handleReply timeless
  cases state with
  | idle => rfl
  | awaiting attempts lastSent => dsimp only; split <;> rfl
  | resolved known => rfl

end Resolver

variable {L A γ ε α : Type} [Incoming A] [Transport L] [Conduit L A]

/-! ## Links -/

namespace Conduit

/-- Two links that flow and have the same frames in their pipelines, with these inboxes. -/
structure Abreast (boxes : List A × List A) (l m : L) : Prop where
  ready : Ready l
  ready' : Ready m
  inbox : Conduit.inbox l = boxes.1
  inbox' : Conduit.inbox m = boxes.2
  pipeline : Conduit.pipeline m = Conduit.pipeline l
  mac : Transport.mac m = Transport.mac l

variable {boxes : List A × List A} {l l' m m' : L}

theorem Abreast.flowed (h : Abreast boxes l m) {queued : List Bytes}
    (hl : Flowed none queued l l') (hm : Flowed none queued m m') : Abreast boxes l' m' := by
  refine ⟨hl.ready h.ready, hm.ready h.ready', hl.inbox.trans h.inbox, hm.inbox.trans h.inbox',
    ?_, ?_⟩
  · rw [hm.pipeline, hl.pipeline, h.pipeline]
  · rw [hm.mac, hl.mac, h.mac]

end Conduit

namespace Endpoint

/-- Two endpoints that differ in what has come in, in which of their frames are on the wire already,
and in when their last questions were asked. -/
structure Abreast (boxes : List A × List A) (e f : Endpoint L) : Prop where
  config : f.config = e.config
  resolver : f.resolver.timeless = e.resolver.timeless
  identification : f.identification = e.identification
  counters : f.counters = e.counters
  links : Conduit.Abreast boxes e.link f.link

/-- Two endpoints abreast, beside the same thing: a frame, or the role of a station. -/
def AbreastBeside (boxes : List A × List A) (s t : Endpoint L × γ) : Prop :=
  Abreast boxes s.1 t.1 ∧ t.2 = s.2

variable {boxes : List A × List A} {e f g : Endpoint L}

theorem abreast_refl (h : Ready e.link) :
    Abreast (Conduit.inbox e.link, Conduit.inbox e.link) e e :=
  ⟨rfl, rfl, rfl, rfl, h, h, rfl, rfl, rfl, rfl⟩

theorem Abreast.trans {first second third : List A} (h : Abreast (first, second) e f)
    (h' : Abreast (second, third) f g) : Abreast (first, third) e g where
  config := h'.config.trans h.config
  resolver := h'.resolver.trans h.resolver
  identification := h'.identification.trans h.identification
  counters := h'.counters.trans h.counters
  links :=
    { ready := h.links.ready
      ready' := h'.links.ready'
      inbox := h.links.inbox
      inbox' := h'.links.inbox'
      pipeline := h'.links.pipeline.trans h.links.pipeline
      mac := h'.links.mac.trans h.links.mac }

theorem Abreast.symm (h : Abreast boxes e f) : Abreast boxes.swap f e where
  config := h.config.symm
  resolver := h.resolver.symm
  identification := h.identification.symm
  counters := h.counters.symm
  links :=
    { ready := h.links.ready'
      ready' := h.links.ready
      inbox := h.links.inbox'
      inbox' := h.links.inbox
      pipeline := h.links.pipeline.symm
      mac := h.links.mac.symm }

theorem Abreast.addressing_eq (h : Abreast boxes e f) : f.addressing = e.addressing := by
  have hpeer : f.resolver.peerMac = e.resolver.peerMac := by
    rw [← Resolver.peerMac_timeless, h.resolver, Resolver.peerMac_timeless]
  simp only [addressing, sourceAddress, targetAddress, h.config, h.identification, h.links.mac,
    hpeer]

theorem count_abreast (g : Counters → Counters) :
    Parallel (Abreast boxes) (count g : Action ε (Endpoint L) Unit)
      (count g : Action ε (Endpoint L) Unit) :=
  Action.together_modify fun _ _ h =>
    ⟨h.config, h.resolver, h.identification, congrArg g h.counters, h.links⟩

variable [FlowingTransport L A]

/-! ## Sending -/

/-- Flushing one of two endpoints makes no difference. -/
theorem Abreast.flush (h : Abreast boxes e f) :
    ∃ e', flush e = .ok () e' ∧ Abreast boxes e' f := by
  obtain ⟨l', hflush, hflowed, -⟩ := flush_flowed h.links.ready
  have hidle := Conduit.flowed_refl h.links.ready'
  exact ⟨_, hflush, h.config, h.resolver, h.identification, h.counters,
    h.links.flowed hflowed hidle⟩

theorem flush_abreast :
    Parallel (Abreast boxes) (flush : Action LinkError (Endpoint L) Unit)
      (flush : Action LinkError (Endpoint L) Unit) := by
  intro e f h
  obtain ⟨e', he, h'⟩ := h.flush
  obtain ⟨f', hf, h''⟩ := h'.symm.flush
  rw [he, hf]
  exact .ok h''.symm

theorem send_abreast {frame : Bytes} (hlength : frame.length ≤ bufferSize) :
    Parallel (Abreast boxes) (send frame : Action FrameError (Endpoint L) Bool)
      (send frame : Action FrameError (Endpoint L) Bool) := by
  intro e f h
  obtain ⟨l', hl, hflowed⟩ := send_flowed hlength h.links.ready
  obtain ⟨m', hm, hflowed'⟩ := send_flowed hlength h.links.ready'
  rw [hl, hm]
  refine .ok ⟨h.config, h.resolver, h.identification, ?_, h.links.flowed hflowed hflowed'⟩
  simp only [h.counters]

/-- A question goes out from both, whatever the time is for each. -/
theorem sendRequest_abreast (now now' : Nat) :
    Parallel (Abreast boxes) (sendRequest now : Action FrameError (Endpoint L) Unit)
      (sendRequest now' : Action FrameError (Endpoint L) Unit) := by
  refine Action.together_get ?_
  intro e f h
  have htarget : f.resolver.target = e.resolver.target := by
    have htimeless := congrArg Resolver.target h.resolver
    exact htimeless
  have hframe (target : Ipv4Address) :
      requestFrame (Transport.mac f.link) f.sourceAddress target =
        requestFrame (Transport.mac e.link) e.sourceAddress target := by
    rw [h.links.mac, sourceAddress, sourceAddress, h.config]
  simp only [htarget, hframe]
  cases e.resolver.target with
  | none => exact Action.parallel_pure ()
  | some target =>
    have hlength : (requestFrame (Transport.mac e.link) e.sourceAddress target).length ≤
        bufferSize := by
      rw [length_requestFrame]
      decide
    refine (send_abreast hlength).bind ?_
    intro sent
    refine Together.ite ?_ (Action.parallel_pure ())
    refine Together.bind (Q := fun _ => Abreast boxes) (E := Abreast boxes) ?_ fun _ =>
      count_abreast _
    refine Action.together_modify ?_
    intro e f h
    refine ⟨h.config, ?_, h.identification, h.counters, h.links⟩
    show (f.resolver.requestSent now').timeless = (e.resolver.requestSent now).timeless
    rw [Resolver.timeless_requestSent, Resolver.timeless_requestSent, h.resolver]

theorem askFirst_abreast (now now' : Nat) :
    Parallel (Abreast boxes) (askFirst now : Action FrameError (Endpoint L) Unit)
      (askFirst now' : Action FrameError (Endpoint L) Unit) := by
  refine Action.together_get ?_
  intro e f h
  have hneeds : f.resolver.needsRequest = e.resolver.needsRequest := by
    rw [← Resolver.needsRequest_timeless, h.resolver, Resolver.needsRequest_timeless]
  rw [hneeds]
  exact Together.ite (sendRequest_abreast now now') (Action.parallel_pure ())

theorem sendDatagram_abreast {room : Nat} {fill : Action GuardError Writer Unit} {payload : Bytes}
    (hfill : Writer.FillsWithin room fill payload) (hroom : payload.length ≤ room)
    (hmax : room ≤ maxDatagram) :
    Parallel (Abreast boxes) (sendDatagram room fill : Action FrameError (Endpoint L) Bool)
      (sendDatagram room fill : Action FrameError (Endpoint L) Bool) := by
  intro e f h
  obtain ⟨l', hl, hflowed⟩ := sendDatagram_flowed hfill hroom hmax h.links.ready
  obtain ⟨m', hm, hflowed'⟩ := sendDatagram_flowed hfill hroom hmax h.links.ready'
  have hnext : Abreast boxes { e with identification := e.identification + 1 }
      { f with identification := f.identification + 1 } :=
    ⟨h.config, h.resolver, congrArg (· + 1) h.identification, h.counters, h.links⟩
  rw [hnext.addressing_eq] at hflowed'
  rw [hl, hm]
  refine .ok ⟨h.config, h.resolver, hnext.identification, ?_, h.links.flowed hflowed hflowed'⟩
  simp only [h.counters]

theorem transmit_abreast (now now' : Nat) {room : Nat} {fill : Action GuardError Writer Unit}
    {payload : Bytes} (hfill : Writer.FillsWithin room fill payload)
    (hroom : payload.length ≤ room) (hmax : room ≤ maxDatagram) :
    Parallel (Abreast boxes) (transmit now room fill : Action FrameError (Endpoint L) Bool)
      (transmit now' room fill : Action FrameError (Endpoint L) Bool) :=
  (askFirst_abreast now now').bind fun _ => sendDatagram_abreast hfill hroom hmax

/-! ## Frames that come in -/

omit [FlowingTransport L A] in
theorem onFirst_abreast {x y : Action ε (Endpoint L) α} (h : Parallel (Abreast boxes) x y) :
    Parallel (AbreastBeside boxes : Endpoint L × γ → Endpoint L × γ → Prop) x.onFirst
      y.onFirst := by
  refine Together.on ?_
  rintro ⟨e, thing⟩ ⟨f, _⟩ ⟨hef, rfl⟩
  exact (h e f hef).mono (fun _ _ _ related => ⟨related, rfl⟩) fun _ _ related => ⟨related, rfl⟩

omit [FlowingTransport L A] in
theorem receiveIpv4_abreast (sender : Mac) (frame : Bytes) :
    Parallel (Abreast boxes)
      (receiveIpv4 sender frame : Action FrameError (Endpoint L) (Option (Nat × Nat)))
      (receiveIpv4 sender frame : Action FrameError (Endpoint L) (Option (Nat × Nat))) := by
  refine Together.bind (Action.parallel_ofExcept _) ?_
  intro ip
  refine Action.together_get ?_
  intro e f h
  simp only [h.config]
  refine Together.ite (Action.parallel_pure none) ?_
  refine Together.bind (Q := fun _ => Abreast boxes) (E := Abreast boxes) ?_ fun _ =>
    Action.parallel_ofExcept _
  refine Action.together_modify ?_
  intro e f h
  refine ⟨h.config, ?_, h.identification, h.counters, h.links⟩
  show (f.resolver.learn ip.source sender).2.timeless =
    (e.resolver.learn ip.source sender).2.timeless
  rw [Resolver.timeless_learn, Resolver.timeless_learn, h.resolver]

/-- A question is answered by both with the same hardware address. -/
theorem receiveArp_abreast :
    Parallel (AbreastBeside boxes) (receiveArp : Action FrameError (Endpoint L × Bytes) Unit)
      (receiveArp : Action FrameError (Endpoint L × Bytes) Unit) := by
  refine Action.together_get ?_
  rintro ⟨e, frame⟩ ⟨f, frame'⟩ ⟨h, hframe⟩
  obtain rfl : frame' = frame := hframe
  have hlinks : Conduit.Abreast boxes e.link f.link := h.links
  have hmac : Transport.mac f.link = Transport.mac e.link := hlinks.mac
  have hconfig : f.config = e.config := h.config
  simp only [hmac, hconfig]
  refine Together.bind (Action.parallel_ofExcept _) ?_
  intro arp
  refine Together.ite (Action.parallel_pure ()) ?_
  refine Together.ite ?_ ?_
  · refine Together.ite (Action.parallel_pure ()) ?_
    refine Together.bind (Q := fun _ => AbreastBeside boxes) (E := AbreastBeside boxes)
      (Action.together_set ⟨h, rfl⟩) ?_
    intro _
    have hlength : (List.take (Header.size EthernetHeader + Header.size ArpPacket)
        (answerInPlace (Transport.mac e.link) frame')).length ≤ bufferSize :=
      Nat.le_trans (List.length_take_le ..) (by decide)
    refine Together.bind (onFirst_abreast (send_abreast hlength)) ?_
    intro sent
    exact Together.ite (onFirst_abreast (count_abreast _)) (Action.parallel_pure ())
  · refine Together.ite (Action.together_set ⟨⟨rfl, ?_, h.identification, h.counters,
      h.links⟩, rfl⟩) (Action.parallel_pure ())
    show (f.resolver.handleReply arp.senderIp arp.senderMac).2.timeless =
      (e.resolver.handleReply arp.senderIp arp.senderMac).2.timeless
    rw [Resolver.timeless_handleReply, Resolver.timeless_handleReply, h.resolver]

theorem dispatch_abreast :
    Parallel (AbreastBeside boxes)
      (dispatch : Action FrameError (Endpoint L × Bytes) (Option (Nat × Nat)))
      (dispatch : Action FrameError (Endpoint L × Bytes) (Option (Nat × Nat))) := by
  refine Action.together_get ?_
  rintro ⟨e, frame⟩ ⟨f, frame'⟩ ⟨-, hframe⟩
  obtain rfl : frame' = frame := hframe
  refine Together.bind (Action.parallel_ofExcept _) ?_
  intro ethernet
  refine Together.ite ?_ (Together.ite ?_ (Action.parallel_pure none))
  · exact receiveArp_abreast.bind fun _ => Action.parallel_pure none
  · exact onFirst_abreast (receiveIpv4_abreast ethernet.source frame')

theorem handle_abreast :
    Parallel (AbreastBeside boxes)
      (handle : Action FrameError (Endpoint L × Bytes) (Option (Nat × Nat)))
      (handle : Action FrameError (Endpoint L × Bytes) (Option (Nat × Nat))) := by
  refine Together.bind (onFirst_abreast (count_abreast _)) ?_
  intro _
  refine Together.bind (Parallel.attempt dispatch_abreast) ?_
  intro answer
  rcases answer with cause | _ | range
  · refine Together.bind (onFirst_abreast (count_abreast _)) ?_
    exact fun _ => Action.parallel_throw cause
  · exact Action.parallel_pure none
  · refine Together.bind (onFirst_abreast (count_abreast _)) ?_
    exact fun _ => Action.parallel_pure (some range)

end Endpoint

end RomCast
