import RomCast.Proofs.Cursor.Appending
import RomCast.Proofs.Endpoint.Addressed
import RomCast.Proofs.Endpoint.Inbound
import RomCast.Proofs.Endpoint.Related
import RomCast.Proofs.Endpoint.Settled
import RomCast.Proofs.Link.Recorded
import RomCast.Proofs.Resolver

set_option autoImplicit false

/-!
# Which frames an endpoint submits

On a link that keeps a record, every operation of an endpoint adds to the frames that were submitted
before: questions for the peer's address, answers to such questions, and datagrams.  What it adds,
and what becomes of the resolution, is one step of the resolver (`Resolver.Step`).
-/

namespace RomCast

open RomCast.Action (Agree Keeps Parallel Together)

namespace Recorded

variable {L : Type} [Transport L] {frames : List Bytes}

/-- These frames were submitted. -/
def HasFrames (frames : List Bytes) (r : Recorded L) : Prop := r.frames = frames

theorem alloc_keeps (length : Nat) :
    Keeps (HasFrames frames) (Transport.alloc length : Action LinkError (Recorded L) _) := by
  intro r h
  rw [Action.state, alloc_eq]
  cases Transport.alloc length r.link with
  | ok d link => exact h
  | error cause link => exact h

theorem process_keeps :
    Keeps (HasFrames frames) (Transport.process : Action LinkError (Recorded L) Unit) := by
  intro r h
  rw [Action.state, process_eq]
  cases Transport.process r.link with
  | ok _ link => exact h
  | error cause link => exact h

theorem drainAcksFrom_frames (n : Nat) (r : Recorded L) :
    (Transport.drainAcksFrom n r).frames = r.frames := by
  induction n generalizing r with
  | zero => rfl
  | succ n ih =>
    unfold Transport.drainAcksFrom
    split
    · cases htaken : Transport.takeAcked r with
      | mk d? r' =>
        have hframes : r'.frames = r.frames := congrArg (fun t => t.2.frames) htaken.symm
        cases d? with
        | none => exact hframes
        | some d => exact (ih _).trans hframes
    · rfl

theorem receive_frames (r : Recorded L) (buffer : Bytes) :
    (Transport.receive.state (r, buffer)).1.frames = r.frames := by
  rw [Action.state, receive_eq]
  cases Transport.receive (r.link, buffer) with
  | ok length s => rfl
  | error cause s => rfl

/-- A buffer that is submitted is recorded as it is then. -/
theorem frames_submit {d : Descriptor} {r r' : Recorded L} (h : Transport.submit d r = .ok () r') :
    r'.frames = r.frames ++ [Transport.content r d] := by
  rw [submit_eq] at h
  cases hsubmit : Transport.submit d r.link with
  | ok _ link =>
    rw [hsubmit] at h
    cases h
    rfl
  | error cause link =>
    rw [hsubmit] at h
    cases h

end Recorded

namespace Endpoint

variable {L : Type} {ε α : Type} {frames : List Bytes}

/-- These frames were submitted over the link below. -/
def HasSubmitted (frames : List Bytes) (f : Endpoint (Recorded L)) : Prop :=
  f.link.HasFrames frames

/-- What a moment adds to the frames that were submitted, and what it makes of the resolution:
datagrams go where the peer is thought to be. -/
structure Submits (now : Nat) (f f' : Endpoint (Recorded L)) (frames : List Bytes) : Prop where
  frames_eq : f'.link.frames = f.link.frames ++ frames
  step : Resolver.Step now f.resolver (frames.countP IsQuestion) f'.resolver
  addressed : ∀ frame ∈ frames, frame.word16 12 = etherTypeIpv4 →
    frame.take 6 = f.resolver.peerMac.bytes

variable {now : Nat} {f f' : Endpoint (Recorded L)}

/-- Nothing was submitted. -/
theorem submits_nil (hframes : f'.link.frames = f.link.frames)
    (hstep : Resolver.Step now f.resolver 0 f'.resolver) : Submits now f f' [] :=
  ⟨hframes.trans (List.append_nil _).symm, hstep, fun _ hframe => nomatch hframe⟩

/-- Only the link and the resolution matter. -/
theorem Submits.congr {frames : List Bytes} {f'' : Endpoint (Recorded L)}
    (h : Submits now f f' frames) (hlink : f''.link = f'.link)
    (hresolver : f''.resolver = f'.resolver) : Submits now f f'' frames :=
  ⟨hlink ▸ h.frames_eq, hresolver ▸ h.step, h.addressed⟩

/-- One ARP packet was submitted. -/
theorem submits_arp {opcode : UInt16} {frame : Bytes} (hframe : ArpFrame opcode frame)
    (hframes : f'.link.frames = f.link.frames ++ [frame])
    (hstep : Resolver.Step now f.resolver (if opcode = ArpPacket.opRequest then 1 else 0)
      f'.resolver) : Submits now f f' [frame] := by
  refine ⟨hframes, ?_, ?_⟩
  · rw [List.countP_singleton]
    simpa [IsQuestion, hframe.etherType_eq, hframe.opcode_eq] using hstep
  · intro other hother htype
    rw [List.mem_singleton.mp hother, hframe.etherType_eq] at htype
    exact absurd htype (by decide)

/-! ## What submits nothing -/

theorem count_submits (g : Counters → Counters) :
    Keeps (HasSubmitted frames) (count g : Action ε (Endpoint (Recorded L)) Unit) :=
  Action.keeps_modify fun _ h => h

theorem onLink_submits {x : Action ε (Recorded L) α} (hx : Keeps (Recorded.HasFrames frames) x) :
    Keeps (HasSubmitted frames) (onLink x) :=
  Keeps.on fun f h => hx f.link h

variable [Transport L]

theorem drainAcks_submits :
    Keeps (HasSubmitted frames) (drainAcks : Action ε (Endpoint (Recorded L)) Unit) :=
  Action.keeps_modify fun f h => (Recorded.drainAcksFrom_frames _ f.link).trans h

theorem reserve_submits (length : Nat) :
    Keeps (HasSubmitted frames)
      (reserve length : Action LinkError (Endpoint (Recorded L)) (Option Descriptor)) := by
  refine Keeps.bind drainAcks_submits fun _ => ?_
  generalize maxAllocRetries + 1 = tries
  induction tries with
  | zero => exact Keeps.bind (count_submits _) fun _ => Action.keeps_pure _ none
  | succ tries ih =>
    refine (onLink_submits (Recorded.alloc_keeps length)).attempt.bind fun answer => ?_
    cases answer with
    | ok d => exact Action.keeps_pure _ (some d)
    | error cause =>
      cases cause with
      | exhausted =>
        exact (onLink_submits Recorded.process_keeps).bind fun _ => drainAcks_submits.bind fun _ => ih
      | tooLarge length => exact Action.keeps_throw _ _
      | failed cause => exact Action.keeps_throw _ _

theorem flush_submits :
    Keeps (HasSubmitted frames) (flush : Action LinkError (Endpoint (Recorded L)) Unit) :=
  (onLink_submits Recorded.process_keeps).bind fun _ => drainAcks_submits

/-- A packet of the peer's tells its hardware address. -/
theorem receiveIpv4_submits (now : Nat) (sender : Mac) (frame : Bytes) :
    Submits now f ((receiveIpv4 sender frame).state f) [] := by
  have hlearned (ip : Ipv4Header) : Submits now f
      { f with resolver := (f.resolver.learn ip.source sender).2 } [] :=
    submits_nil rfl (.learned ip.source sender)
  rw [Action.state, receiveIpv4_eq]
  cases checkIpv4 frame with
  | error cause => exact submits_nil rfl .rest
  | ok ip =>
    cases haccepts : f.config.accepts ip.target with
    | false =>
      simp only [haccepts, Bool.false_eq_true, if_false]
      exact submits_nil rfl .rest
    | true =>
      simp only [haccepts, if_true]
      cases checkUdp f.config.port frame ip with
      | error cause => exact hlearned ip
      | ok range => exact hlearned ip

/-! ## What submits a frame -/

variable [PooledTransport L]

/-- An endpoint, and the same one over a link that keeps a record, with all of `total` buffers
accounted for. -/
abbrev Watched (total : Nat) (held : Option Descriptor) (e : Endpoint L)
    (f : Endpoint (Recorded L)) : Prop :=
  Paired (Recorded.custody (Tally.trivial L) total) held e f

variable {total : Nat} {e : Endpoint L}

theorem Watched.accounts {held : Option Descriptor} (h : Watched total held e f) :
    (Transport.pool f.link).Accounts (held.map Descriptor.slot).toList := by
  obtain ⟨m, rfl, hm⟩ := h
  show (Transport.pool m).Accounts _
  rw [(Recorded.custody (Tally.trivial L) total).pool_eq hm]
  exact hm.accounts

/-- A buffer that frames fit in is found, or the frame has to be dropped. -/
theorem reserve_watched {length : Nat} (hlength : length ≤ bufferSize)
    (h : Watched total none e f) :
    ∃ d? e' f', reserve length f = .ok d? f' ∧ Watched total d? e' f' ∧
      f'.link.frames = f.link.frames ∧ ∀ d, d? = some d → d.length = length := by
  obtain ⟨m, rfl, hm⟩ := id h
  obtain ⟨d?, e', hreserve, -, hd⟩ := reserve_steady hlength e hm.accounts
  have hagree := reserve_together length e _ h
  have hframes : HasSubmitted m.frames ((reserve length).state (e.withLink m)) :=
    reserve_submits length (e.withLink m) rfl
  rw [hreserve] at hagree
  cases hresult : reserve length (e.withLink m) with
  | ok d?' f' =>
    rw [hresult] at hagree
    rw [Action.state_of_ok hresult] at hframes
    cases hagree with
    | ok hpaired => exact ⟨d?, e', f', rfl, hpaired, hframes, hd⟩
  | error cause f' =>
    rw [hresult] at hagree
    cases hagree

/-- Reserving a buffer that is too long fails. -/
theorem reserve_tooLarge {length : Nat} (hlength : bufferSize < length) (e : Endpoint L) :
    ∃ e', reserve length e = .error (.tooLarge length) e' := by
  have halloc := PooledTransport.alloc_eq length (Transport.drainAcks e.link)
  rw [Action.on, TransmitPool.alloc, if_pos hlength] at halloc
  refine ⟨e.withLink (Transport.setPool (Transport.pool (Transport.drainAcks e.link))
    (Transport.drainAcks e.link)), ?_⟩
  simp only [reserve, drainAcks, Action.bind_apply, Action.modify_apply, reserveTries,
    Action.attempt, onLink, Action.on, halloc, Action.throw_apply, withLink]

/-- A held buffer is submitted as it is. -/
theorem submit_watched {d : Descriptor} (h : Watched total (some d) e f) :
    ∃ e' f', submit d f = .ok () f' ∧ Watched total none e' f' ∧
      f'.link.frames = f.link.frames ++ [Transport.content f.link d] := by
  obtain ⟨m, rfl, hm⟩ := h
  -- On a link that is not ready, waiting frames are sent first; the buffers keep their contents.
  obtain ⟨l₁, m₁, hready, hm₁, hframes, hcontent⟩ : ∃ (l₁ : L) (m₁ : Recorded L),
      submit d (e.withLink m) = (onLink (Transport.submit d) >>= fun _ =>
        count fun c => { c with txFrames := c.txFrames + 1 }) (e.withLink m₁) ∧
      (Recorded.custody (Tally.trivial L) total).Related (some d) e.counters.txFrames l₁ m₁ ∧
      m₁.frames = m.frames ∧ Transport.content m₁ d = Transport.content m d := by
    cases hready : Transport.ready m with
    | true =>
      refine ⟨e.link, m, ?_, hm, rfl, rfl⟩
      simp only [submit, Action.bind_apply, Action.get_apply, withLink, hready, if_true]
    | false =>
      obtain ⟨l₁, m₁, hl₁, hm₁, hsent⟩ := (Recorded.custody (Tally.trivial L) total).process hm
      refine ⟨l₁, m₁, ?_, hsent, ?_, ?_⟩
      · simp only [submit, Action.bind_apply, Action.get_apply, withLink, hready,
          Bool.false_eq_true, if_false, onLink, Action.on, hm₁]
      · have hframes : Recorded.HasFrames m.frames (Transport.process.state m) :=
          Recorded.process_keeps m rfl
        rw [Action.state_of_ok hm₁] at hframes
        exact hframes
      · obtain ⟨l₂, hl₂, -, hbuffers, -⟩ := PooledTransport.exists_process hm.accounts
        obtain rfl : l₁ = l₂ := by
          rw [hl₁] at hl₂
          cases hl₂
          rfl
        rw [LinkRelation.content_eq hsent, LinkRelation.content_eq hm, Transport.content,
          Transport.content, TransmitPool.content, TransmitPool.content, TransmitPool.buffer,
          TransmitPool.buffer, hbuffers]
  obtain ⟨l', m', -, hsubmit, hm'⟩ := (Recorded.custody (Tally.trivial L) total).submit hm₁
  refine ⟨{ e with link := l', counters := { e.counters with
      txFrames := e.counters.txFrames + 1 } },
    { e.withLink m' with counters := { e.counters with txFrames := e.counters.txFrames + 1 } },
    ?_, ⟨m', rfl, hm'⟩, ?_⟩
  · rw [hready]
    simp only [Action.bind_apply, onLink, Action.on, withLink, hsubmit]
    rfl
  · show m'.frames = m.frames ++ [Transport.content m d]
    rw [Recorded.frames_submit hsubmit, hframes, hcontent]

/-- The front of what was written into a held buffer is submitted. -/
theorem store_submit_watched {d : Descriptor} (h : Watched total (some d) e f) {bytes : Bytes}
    {length : Nat} (hlength : length ≤ d.length) (hbytes : length ≤ bytes.length)
    (hd : d.length ≤ bufferSize) :
    ∃ e' f', submit (d.truncate length) { f with link := Transport.store f.link d bytes } =
        .ok () f' ∧ Watched total none e' f' ∧
      f'.link.frames = f.link.frames ++ [bytes.take length] := by
  obtain ⟨m, rfl, hm⟩ := h
  have hstored := (Recorded.custody (Tally.trivial L) total).store hm bytes
  have htruncated := (Recorded.custody (Tally.trivial L) total).truncate hstored length
  obtain ⟨e', f', hsubmit, hwatched, hframes⟩ := submit_watched
    (e := { e with link := Transport.store e.link d bytes })
    (f := { e.withLink m with link := Transport.store m d bytes }) ⟨_, rfl, htruncated⟩
  refine ⟨e', f', hsubmit, hwatched, hframes.trans ?_⟩
  have hpool : Transport.pool (Transport.store m d bytes) = (Transport.pool m).store d bytes := by
    rw [(Recorded.custody (Tally.trivial L) total).pool_eq hstored,
      (Recorded.custody (Tally.trivial L) total).pool_eq hm]
    exact PooledTransport.pool_setPool _ _
  have haccounts : (Transport.pool m).Accounts [d.slot] :=
    Watched.accounts (e := e) ⟨m, rfl, hm⟩
  show m.frames ++ [Transport.content (Transport.store m d bytes) (d.truncate length)] =
    m.frames ++ [bytes.take length]
  rw [Transport.content, hpool, TransmitPool.content_store_truncate haccounts hlength hbytes hd]

/-- A frame that fits a buffer is submitted as it is, or dropped. -/
theorem send_watched {frame : Bytes} (hlength : frame.length ≤ bufferSize)
    (h : Watched total none e f) :
    ∃ sent e' f', (send frame : Action FrameError (Endpoint (Recorded L)) Bool) f = .ok sent f' ∧
      Watched total none e' f' ∧
      f'.link.frames = f.link.frames ++ (if sent then [frame] else []) := by
  obtain ⟨d?, e₁, f₁, hreserve, hreserved, hframes, hd⟩ := reserve_watched hlength h
  unfold send
  rw [Action.bind_apply, Action.mapError, hreserve]
  cases d? with
  | none => exact ⟨false, e₁, f₁, rfl, hreserved, hframes.trans (List.append_nil _).symm⟩
  | some d =>
    have hsame : d.length = frame.length := hd d rfl
    have hwhole : d.truncate frame.length = d := by
      rw [Descriptor.truncate, ← hsame, Nat.min_self]
    obtain ⟨e', f', hsubmit, hwatched, hsubmitted⟩ := store_submit_watched hreserved
      (Nat.le_of_eq hsame.symm) (Nat.le_refl frame.length) (hsame ▸ hlength)
    rw [hwhole] at hsubmit
    rw [List.take_length, hframes] at hsubmitted
    refine ⟨true, e', f', ?_, hwatched, hsubmitted⟩
    simp only [Action.bind_apply, Action.modify_apply, Action.mapError, hsubmit, Action.pure_apply]

/-! ## Asking -/

/-- A question that is sent is noted. -/
theorem sendRequest_submits (h : Watched total none e f)
    (hstep : Resolver.Step now f.resolver 1 (f.resolver.requestSent now)) :
    ∃ e' f' frames, (sendRequest now : Action FrameError (Endpoint (Recorded L)) Unit) f =
        .ok () f' ∧ Watched total none e' f' ∧ Submits now f f' frames ∧
      f'.resolver.peerMac = f.resolver.peerMac := by
  unfold sendRequest
  rw [Action.bind_apply, Action.get_apply]
  cases htarget : f.resolver.target with
  | none =>
    refine ⟨e, f, [], ?_, h, submits_nil rfl .rest, rfl⟩
    simp only [htarget]
    rfl
  | some target =>
    obtain ⟨question, hframe, hquestion⟩ : ∃ question,
        question = requestFrame (Transport.mac f.link) f.sourceAddress target ∧
          ArpFrame ArpPacket.opRequest question := ⟨_, rfl, requestFrame_arpFrame _ _ _⟩
    obtain ⟨sent, e₁, f₁, hsend, hwatched, hframes⟩ :=
      send_watched (Nat.le_trans (Nat.le_of_eq hquestion.length_eq) (by decide)) h
    have hsettled := settled_aside.send question f ⟨rfl, rfl⟩
    rw [Action.state_of_ok hsend] at hsettled
    simp only [htarget, Action.bind_apply, ← hframe, hsend]
    cases sent with
    | false =>
      refine ⟨e₁, f₁, [], rfl, hwatched, submits_nil (hframes.trans (List.append_nil _)) ?_, ?_⟩
      · rw [hsettled.2]
        exact .rest
      · rw [hsettled.2]
    | true =>
      obtain ⟨m, rfl, hm⟩ := hwatched
      refine ⟨{ e₁ with
          resolver := e₁.resolver.requestSent now
          counters := { e₁.counters with arpRequests := e₁.counters.arpRequests + 1 } },
        _, [question], rfl, ⟨m, rfl, hm⟩, submits_arp hquestion hframes ?_, ?_⟩
      · show Resolver.Step now f.resolver 1 ((e₁.withLink m).resolver.requestSent now)
        rw [hsettled.2]
        exact hstep
      · show ((e₁.withLink m).resolver.requestSent now).peerMac = _
        rw [hsettled.2, peerMac_requestSent]

/-- Looking at the timer asks again when it is time. -/
theorem pollTimers_submits (now : Nat) (h : Watched total none e f) :
    ∃ frames, Submits now f ((pollTimers now).state f) frames := by
  unfold pollTimers
  rw [Action.state_bind_of_ok (Action.get_apply f)]
  by_cases hresend : (f.resolver.poll now).1 = .resend
  · have hsame : (f.resolver.poll now).2 = f.resolver :=
      Resolver.poll_eq_self (by rw [hresend]; exact fun h => nomatch h)
    obtain ⟨e', f', frames, hsend, -, hsubmits, -⟩ :=
      sendRequest_submits h (Resolver.Step.repeated hresend)
    refine ⟨frames, ?_⟩
    have hmodify : (modify fun f : Endpoint (Recorded L) => { f with
        resolver := (f.resolver.poll now).2 } : Action FrameError (Endpoint (Recorded L)) Unit) f =
          .ok () f := by
      rw [Action.modify_apply, hsame]
    simp only [hresend, hsame, if_true]
    rw [Action.state_bind_of_ok (Action.modify_apply _ _), Action.state_of_ok hsend]
    exact hsubmits
  · simp only [if_neg hresend, Action.state_bind_pure]
    refine ⟨[], submits_nil rfl ?_⟩
    show Resolver.Step now f.resolver 0 (f.resolver.poll now).2
    by_cases hgave : (f.resolver.poll now).1 = .gaveUp
    · exact .gaveUp hgave
    · rw [Resolver.poll_eq_self hgave]
      exact .rest

/-- A question goes out before a datagram, unless one went out already or none is needed. -/
theorem askFirst_submits (now : Nat) (h : Watched total none e f) :
    ∃ e' f' frames, (askFirst now : Action FrameError (Endpoint (Recorded L)) Unit) f =
        .ok () f' ∧ Watched total none e' f' ∧ Submits now f f' frames ∧
      f'.resolver.peerMac = f.resolver.peerMac := by
  unfold askFirst
  simp only [Action.bind_apply, Action.get_apply, Action.ite_apply]
  split
  · rename_i hneeds
    exact sendRequest_submits h (.asked hneeds)
  · exact ⟨e, f, [], rfl, h, submits_nil rfl .rest, rfl⟩

/-! ## Datagrams -/

/-- A frame that begins with this Ethernet header says so. -/
theorem ethernet_of_take {frame : Bytes} {a : Addressing}
    (h : frame.take 14 = Header.encode a.ethernet) :
    frame.word16 12 = etherTypeIpv4 ∧ frame.take 6 = a.targetMac.bytes := by
  have hframe : frame = Header.encode a.ethernet ++ frame.drop 14 := by
    rw [← h, List.take_append_drop]
  have hdecode := LawfulHeader.decode_encode_append a.ethernet (frame.drop 14)
  rw [← hframe] at hdecode
  refine ⟨congrArg EthernetHeader.etherType hdecode, ?_⟩
  have hlength : a.targetMac.bytes.length = 6 := Mac.length_bytes _
  have hencode : Header.encode a.ethernet =
      a.targetMac.bytes ++ (a.sourceMac.bytes ++ Bytes.ofWord16 etherTypeIpv4) := rfl
  rw [hframe, hencode, List.append_assoc, ← hlength, List.take_left]

/-- One datagram at most is submitted, to where the peer is thought to be. -/
theorem sendDatagram_submits_atMost (room : Nat) {fill : Action GuardError Writer Unit}
    (hfill : Writer.Appends fill) (h : Watched total none e f) :
    ∃ frames, ((sendDatagram room fill : Action FrameError _ Bool).state f).link.frames =
        f.link.frames ++ frames ∧
      (frames = [] ∨ ∃ frame, frames = [frame] ∧ frame.word16 12 = etherTypeIpv4 ∧
        frame.take 6 = f.resolver.peerMac.bytes) := by
  have hnothing (f' : Endpoint (Recorded L)) (hframes : f'.link.frames = f.link.frames) :
      ∃ frames, f'.link.frames = f.link.frames ++ frames ∧
        (frames = [] ∨ ∃ frame, frames = [frame] ∧ frame.word16 12 = etherTypeIpv4 ∧
          frame.take 6 = f.resolver.peerMac.bytes) :=
    ⟨[], hframes.trans (List.append_nil _).symm, Or.inl rfl⟩
  by_cases hlength : frameOverhead + room ≤ bufferSize
  · obtain ⟨d?, e₁, f₁, hreserve, hreserved, hframes, hd⟩ := reserve_watched hlength h
    have hsettled := settled_aside.reserve (frameOverhead + room) f ⟨rfl, rfl⟩
    rw [Action.state_of_ok hreserve] at hsettled
    have hmapped : (reserve (frameOverhead + room)).mapError FrameError.link f = .ok d? f₁ := by
      rw [Action.mapError, hreserve]
    rw [sendDatagram, Action.state_bind_of_ok hmapped]
    cases d? with
    | none => exact hnothing f₁ hframes
    | some d =>
      -- The frame is written as the endpoint is when the buffer is there.
      obtain ⟨f₂, hf₂⟩ : ∃ f₂ : Endpoint (Recorded L),
          f₂ = { f₁ with identification := f₁.identification + 1 } := ⟨_, rfl⟩
      have hwatched : Watched total (some d)
          { e₁ with identification := e₁.identification + 1 } f₂ := by
        obtain ⟨m, rfl, hm⟩ := hreserved
        exact ⟨m, hf₂, hm⟩
      have hcontent : (Transport.content f₂.link d).length = d.length := by
        have haccounts : (Transport.pool f₂.link).Accounts [d.slot] := hwatched.accounts
        rw [Transport.content, TransmitPool.content, List.length_take, haccounts.length_buffer,
          hd d rfl]
        exact Nat.min_eq_left hlength
      have hpeer : f₂.addressing.targetMac = f.resolver.peerMac := by
        rw [hf₂]
        exact congrArg Resolver.peerMac hsettled.2
      have hframes₂ : f₂.link.frames = f.link.frames := by
        rw [hf₂]
        exact hframes
      rw [Action.state_bind_of_ok (Action.modify_apply _ _), ← hf₂,
        Action.state_bind_of_ok (Action.get_apply _)]
      simp only
      rw [Action.state_bind_of_ok (Action.modify_apply _ _)]
      cases hwritten : f₂.addressing.write fill { buffer := Transport.content f₂.link d } with
      | error cause w =>
        simp only [Action.result, hwritten]
        exact hnothing _ hframes₂
      | ok length w =>
        obtain ⟨hleast, hmost, hbuffer, hethernet⟩ := f₂.addressing.write_eq_ok hfill hwritten
        have hroom : length ≤ w.buffer.length := by omega
        obtain ⟨e', f', hsubmit, -, hsubmitted⟩ := store_submit_watched hwatched (hcontent ▸ hmost)
          hroom (by rw [hd d rfl]; exact hlength)
        have hsent : (submit (d.truncate length)).mapError FrameError.link
            { f₂ with link := Transport.store f₂.link d w.buffer } = .ok () f' := by
          rw [Action.mapError, hsubmit]
        simp only [Action.result, hwritten, Action.state_of_ok hwritten]
        rw [Action.state_bind_of_ok hsent]
        have hfront : (w.buffer.take length).take 14 = Header.encode f₂.addressing.ethernet := by
          rw [List.take_take, Nat.min_eq_left (by omega)]
          exact hethernet
        obtain ⟨htype, htarget⟩ := ethernet_of_take hfront
        exact ⟨_, hframes₂ ▸ hsubmitted, Or.inr ⟨_, rfl, htype, hpeer ▸ htarget⟩⟩
  · obtain ⟨e₁, hreserve⟩ := reserve_tooLarge (Nat.lt_of_not_le hlength) e
    have hagree := reserve_together (frameOverhead + room) e f h
    have hframes : HasSubmitted f.link.frames ((reserve (frameOverhead + room)).state f) :=
      reserve_submits (frameOverhead + room) f rfl
    rw [hreserve] at hagree
    cases hresult : reserve (frameOverhead + room) f with
    | ok d? f₁ =>
      rw [hresult] at hagree
      cases hagree
    | error cause f₁ =>
      rw [Action.state_of_error hresult] at hframes
      have hmapped : (reserve (frameOverhead + room)).mapError FrameError.link f =
          .error (.link cause) f₁ := by
        rw [Action.mapError, hresult]
      rw [sendDatagram, Action.state_bind_of_error hmapped]
      exact hnothing f₁ hframes

/-- A datagram goes to where the peer is thought to be when it is asked for, behind the question that
had to be asked. -/
theorem transmit_submits (now room : Nat) {fill : Action GuardError Writer Unit}
    (hfill : Writer.Appends fill) (h : Watched total none e f) :
    ∃ frames, Submits now f ((transmit now room fill).state f) frames := by
  obtain ⟨e₁, f₁, questions, hasked, hwatched, hquestions, hpeer⟩ := askFirst_submits now h
  obtain ⟨frames, hframes, hdatagram⟩ := sendDatagram_submits_atMost room hfill hwatched
  have hsettled := sendDatagram_settled room fill f₁ ⟨rfl, rfl⟩
  rw [transmit, Action.state_bind_of_ok hasked]
  have hasked' : frames.countP IsQuestion = 0 := by
    rcases hdatagram with rfl | ⟨frame, rfl, htype, -⟩
    · rfl
    · rw [List.countP_singleton]
      simp [IsQuestion, htype, etherTypeIpv4, etherTypeArp]
  refine ⟨questions ++ frames, ?_, ?_, ?_⟩
  · rw [hframes, hquestions.frames_eq, List.append_assoc]
  · rw [List.countP_append, hasked', hsettled.2]
    exact hquestions.step
  · intro frame hframe htype
    rcases List.mem_append.mp hframe with hquestion | hsent
    · exact hquestions.addressed frame hquestion htype
    · rcases hdatagram with rfl | ⟨datagram, rfl, -, htarget⟩
      · cases hsent
      · rw [List.mem_singleton.mp hsent, htarget, hpeer]

/-! ## Frames that come in -/

/-- The answer to a question is not a question. -/
theorem answer_submits (now : Nat) {frame : Bytes} (hlength : 42 ≤ frame.length)
    (htype : frame.word16 12 = etherTypeArp) (owner : Mac) (h : Watched total none e f) :
    ∃ sent f' frames, (send ((answerInPlace owner frame).take 42) :
        Action FrameError (Endpoint (Recorded L)) Bool) f = .ok sent f' ∧
      Submits now f f' frames := by
  have hanswer := answerInPlace_arpFrame owner hlength htype
  obtain ⟨sent, e', f', hsend, -, hframes⟩ :=
    send_watched (Nat.le_trans (Nat.le_of_eq hanswer.length_eq) (by decide)) h
  have hsettled := settled_aside.send ((answerInPlace owner frame).take 42) f ⟨rfl, rfl⟩
  rw [Action.state_of_ok hsend] at hsettled
  have hstep : Resolver.Step now f.resolver 0 f'.resolver := by
    rw [hsettled.2]
    exact .rest
  cases sent with
  | false => exact ⟨false, f', [], hsend, submits_nil (hframes.trans (List.append_nil _)) hstep⟩
  | true => exact ⟨true, f', _, hsend, submits_arp hanswer hframes hstep⟩

/-- An ARP question may be answered, and an answer may be learned from. -/
theorem receiveArp_submits (now : Nat) {frame : Bytes} (htype : frame.word16 12 = etherTypeArp)
    (h : Watched total none e f) :
    ∃ frames, Submits now f ((receiveArp.state (f, frame)).1) frames := by
  have hnothing : ∃ frames, Submits now f f frames := ⟨[], submits_nil rfl .rest⟩
  unfold receiveArp
  rw [Action.state_bind_of_ok (Action.get_apply (f, frame))]
  simp only [Reader.result_read_eq]
  have hsize : Header.size ArpPacket = 28 := rfl
  have hstart : ipv4Start = 14 := rfl
  rw [hsize, hstart]
  by_cases hlength : 28 ≤ frame.length - 14
  · rw [if_pos hlength]
    generalize (Header.decode ((frame.drop 14).take 28) : ArpPacket) = arp
    have hread : (Action.ofExcept ((Except.ok arp : Except GuardError ArpPacket).mapError
        FrameError.guarded) : Action FrameError (Endpoint (Recorded L) × Bytes) ArpPacket)
          (f, frame) = .ok arp (f, frame) := rfl
    rw [Action.state_bind_of_ok hread]
    cases harp : arp.isEthernetIpv4 with
    | false => exact hnothing
    | true =>
      simp only [Bool.not_true, Bool.false_eq_true, if_false]
      by_cases hquestion : arp.opcode = ArpPacket.opRequest
      · rw [if_pos hquestion]
        by_cases hmine : f.config.source = some arp.targetIp
        · simp only [hmine, ne_eq, not_true_eq_false, if_false]
          obtain ⟨sent, f₁, frames, hsend, hsubmits⟩ := answer_submits now
            (by omega : 42 ≤ frame.length) htype (Transport.mac f.link) h
          rw [Action.state_bind_of_ok (Action.set_apply _ _)]
          have hfirst : (send ((answerInPlace (Transport.mac f.link) frame).take
              (Header.size EthernetHeader + 28))).onFirst
                (f, answerInPlace (Transport.mac f.link) frame) =
              (.ok sent (f₁, answerInPlace (Transport.mac f.link) frame) :
                EStateM.Result FrameError (Endpoint (Recorded L) × Bytes) Bool) := by
            have hfront : Header.size EthernetHeader + 28 = 42 := rfl
            rw [hfront, Action.onFirst, Action.on, hsend]
          rw [Action.state_bind_of_ok hfirst]
          refine ⟨frames, ?_⟩
          cases sent with
          | false => exact hsubmits
          | true => exact hsubmits.congr rfl rfl
        · simp only [ne_eq, hmine, not_false_eq_true, if_true]
          exact hnothing
      · rw [if_neg hquestion]
        by_cases hreply : arp.opcode = ArpPacket.opReply
        · rw [if_pos hreply]
          exact ⟨[], submits_nil rfl (.answered arp.senderIp arp.senderMac)⟩
        · rw [if_neg hreply]
          exact hnothing
  · rw [if_neg hlength]
    exact hnothing

theorem dispatch_submits (now : Nat) (frame : Bytes) (h : Watched total none e f) :
    ∃ frames, Submits now f ((dispatch.state (f, frame)).1) frames := by
  have hnothing : ∃ frames, Submits now f f frames := ⟨[], submits_nil rfl .rest⟩
  unfold dispatch
  rw [Action.state_bind_of_ok (Action.get_apply (f, frame))]
  simp only [Reader.readFront_eq]
  have hsize : Header.size EthernetHeader = 14 := rfl
  rw [hsize]
  by_cases hlength : 14 ≤ frame.length
  · rw [if_pos hlength]
    obtain ⟨ethernet, hethernet⟩ : ∃ ethernet : EthernetHeader,
        ethernet = Header.decode (frame.take 14) := ⟨_, rfl⟩
    have htype : ethernet.etherType = frame.word16 12 := by
      rw [hethernet, ← Bytes.word16_take (by omega) hlength]
      rfl
    rw [← hethernet]
    have hread : (Action.ofExcept ((Except.ok ethernet : Except GuardError EthernetHeader).mapError
        FrameError.guarded) : Action FrameError (Endpoint (Recorded L) × Bytes) EthernetHeader)
          (f, frame) = .ok ethernet (f, frame) := rfl
    rw [Action.state_bind_of_ok hread]
    by_cases harp : ethernet.etherType = etherTypeArp
    · simp only [harp, if_true, Action.state_bind_pure]
      exact receiveArp_submits now (htype ▸ harp) h
    · simp only [harp, if_false]
      by_cases hip : ethernet.etherType = etherTypeIpv4
      · simp only [hip, if_true, Action.state_onFirst]
        exact ⟨[], receiveIpv4_submits now ethernet.source frame⟩
      · simp only [hip, if_false]
        exact hnothing
  · rw [if_neg hlength]
    exact hnothing

/-- What comes in sends an answer at most, and may be learned from. -/
theorem handle_submits (now : Nat) (frame : Bytes) (h : Watched total none e f) :
    ∃ frames, Submits now f ((handle.state (f, frame)).1) frames := by
  obtain ⟨m, rfl, hm⟩ := h
  obtain ⟨f₀, hf₀⟩ : ∃ f₀ : Endpoint (Recorded L), f₀ = { e.withLink m with counters :=
    { e.counters with rxFrames := e.counters.rxFrames + 1 } } := ⟨_, rfl⟩
  have hwatched : Watched total none
      { e with counters := { e.counters with rxFrames := e.counters.rxFrames + 1 } } f₀ :=
    ⟨m, hf₀, hm⟩
  obtain ⟨frames, hsubmits⟩ := dispatch_submits now frame hwatched
  have hcount : ((count fun c => { c with rxFrames := c.rxFrames + 1 }).onFirst :
      Action FrameError (Endpoint (Recorded L) × Bytes) Unit) (e.withLink m, frame) =
        .ok () (f₀, frame) := by
    rw [hf₀]
    rfl
  have hstart : Submits now (e.withLink m) ((dispatch.state (f₀, frame)).1) frames := by
    rw [hf₀] at hsubmits ⊢
    exact ⟨hsubmits.frames_eq, hsubmits.step, hsubmits.addressed⟩
  refine ⟨frames, ?_⟩
  unfold handle
  rw [Action.state_bind_of_ok hcount]
  -- What was found is counted, and nothing else happens.
  cases hdispatch : dispatch (f₀, frame) with
  | ok range? s =>
    rw [Action.state_of_ok hdispatch] at hstart
    have hattempt : dispatch.attempt (f₀, frame) = (.ok (.ok range?) s :
        EStateM.Result FrameError (Endpoint (Recorded L) × Bytes) _) := by
      rw [Action.attempt, hdispatch]
    rw [Action.state_bind_of_ok hattempt]
    cases range? with
    | none => exact hstart
    | some range => exact hstart.congr rfl rfl
  | error cause s =>
    rw [Action.state_of_error hdispatch] at hstart
    have hattempt : dispatch.attempt (f₀, frame) = (.ok (.error cause) s :
        EStateM.Result FrameError (Endpoint (Recorded L) × Bytes) _) := by
      rw [Action.attempt, hdispatch]
    rw [Action.state_bind_of_ok hattempt]
    exact hstart.congr rfl rfl

end Endpoint

end RomCast
