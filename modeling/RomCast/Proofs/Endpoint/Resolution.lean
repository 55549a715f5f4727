import RomCast.Proofs.Endpoint.Submitted
import RomCast.Proofs.Station.Conservation

set_option autoImplicit false

/-!
# Resolving the peer's address over a whole run

An endpoint is used in any way, over any link that is built on a pool: datagrams are sent, the timer
is looked at, frames come in, and time passes in between.  The questions for the peer's address are
bounded in number and apart in time, giving up comes after the last of them, and what is resolved
stays resolved (`resolution_bounded`).
-/

namespace RomCast

/-- Something that fills a payload, and touches nothing else. -/
structure Payload where
  fill : Action GuardError Writer Unit
  appends : Writer.Appends fill

/-- What the beats of a run of an endpoint with this configuration are like. -/
structure Beat.Lawful (config : Endpoint.Config) (beats : List Beat) : Prop where
  /-- Every beat begins where the one before it ended, and is not earlier. -/
  linked : beats.IsChain fun beat next => next.before = beat.after ∧ beat.time ≤ next.time
  /-- The questions of an attempt are bounded in number and apart in time. -/
  attempt : ∀ pre seg post, beats = pre ++ (seg ++ post) → IsAttempt seg →
    (questions seg).length ≤ max 1 config.maxRetries ∧
      (questions seg).IsChain fun t t' => t + config.retryInterval ≤ t'
  /-- Whoever gives up has asked as often as possible in this attempt, and has waited for the last
  answer. -/
  gaveUp : ∀ pre beat post, beats = pre ++ beat :: post → beat.before.state ≠ .idle →
    beat.after.state = .idle → ∃ earlier seg last, pre = earlier ++ seg ∧ IsAttempt seg ∧
      (questions seg).length = max 1 config.maxRetries ∧ (questions seg).getLast? = some last ∧
      last + config.retryInterval ≤ beat.time
  /-- Nothing is asked without a peer, or when its address is known. -/
  unasked : ∀ beat ∈ beats, config.target = none ∨ beat.before.state.IsResolved → beat.asked = 0
  /-- An address that is known from the start is known to the end. -/
  known : ∀ mac, config.targetMac = some mac → ∀ beat ∈ beats, beat.after.state = .resolved mac
  /-- An address that is learned is known from then on. -/
  final : ∀ pre beat post mac, beats = pre ++ beat :: post → beat.after.state = .resolved mac →
    ∀ later ∈ post, later.before.state = .resolved mac ∧ later.after.state = .resolved mac
  /-- As long as the address is not known, datagrams go to everyone. -/
  broadcast : ∀ beat ∈ beats, ¬ beat.before.state.IsResolved → ∀ frame ∈ beat.frames,
    frame.word16 12 = etherTypeIpv4 → frame.take 6 = Mac.broadcast.bytes

namespace Endpoint

variable {L : Type}

/-- The resolver that an endpoint begins with. -/
theorem resolver_new (link : L) (config : Config) :
    (new link config).resolver.target = config.target ∧
      (new link config).resolver.interval = config.retryInterval ∧
      (new link config).resolver.maxAttempts = max 1 config.maxRetries ∧
      ¬ (new link config).resolver.state.IsAwaiting ∧
      ∀ mac, config.targetMac = some mac → (new link config).resolver.state = .resolved mac := by
  have hmax : max config.maxRetries 1 = max 1 config.maxRetries := Nat.max_comm ..
  cases hmac : config.targetMac with
  | none =>
    simp only [new, hmac, Resolver.new, hmax, true_and]
    exact ⟨Resolution.not_isAwaiting_idle, fun mac hsome => nomatch hsome⟩
  | some mac =>
    simp only [new, hmac, Resolver.new, Resolver.withStatic, hmax, true_and]
    refine ⟨Resolution.not_isAwaiting_resolved mac, ?_⟩
    rintro _ ⟨⟩
    rfl

/-- A run that begins with a new endpoint. -/
theorem lawful_of_linked {now : Nat} {link : L} {config : Config}
    {run : List Beat}
    (h : Beat.Linked now (new link config).resolver run)
    (haddressed : ∀ beat ∈ run, ∀ frame ∈ beat.frames, frame.word16 12 = etherTypeIpv4 →
      frame.take 6 = beat.before.peerMac.bytes) : Beat.Lawful config run := by
  obtain ⟨htarget, hinterval, hmax, hquiet, hknown⟩ := resolver_new link config
  have hpositive : 1 ≤ (new link config).resolver.maxAttempts := by
    rw [hmax]
    exact Nat.le_max_left ..
  constructor
  case linked => exact h.isChain
  case attempt =>
    intro pre seg post hrun hseg
    rw [← hmax, ← hinterval]
    exact Beat.Linked.attempt (hrun ▸ h) hpositive hseg
  case gaveUp =>
    intro pre beat post hrun hbegun hended
    rw [← hmax, ← hinterval]
    exact Beat.Linked.gaveUp (hrun ▸ h) hpositive hquiet hbegun hended
  case unasked =>
    intro beat hbeat hwhy
    obtain ⟨pre, post, hrun⟩ := List.append_of_mem hbeat
    rw [hrun] at h
    rcases hwhy with hnone | hresolved
    · exact h.unasked_of_target_none (htarget.trans hnone) hquiet
    · exact (h.step_of.1.of_resolved hresolved).1
  case known =>
    intro mac hmac beat hbeat
    have hresolved := hknown mac hmac
    rw [(h.after_of_resolved ⟨mac, hresolved⟩ beat hbeat).2.2, hresolved]
  case final =>
    intro pre beat post mac hrun hresolved later hlater
    rw [hrun] at h
    obtain ⟨hbefore, -, hafter⟩ := h.step_of.2.2.after_of_resolved ⟨mac, hresolved⟩ later hlater
    rw [hbefore, hafter]
    exact ⟨hresolved, hresolved⟩
  case broadcast =>
    intro beat hbeat hopen frame hframe htype
    rw [haddressed beat hbeat frame hframe htype, Resolver.peerMac_of_not_resolved hopen]

/-! ## Uses -/

variable [Transport L]

/-- What an endpoint is used for, and what happens to its link. -/
inductive Use (L : Type) [Transport L] where
  /-- Send a datagram of at most `room` bytes. -/
  | transmit (room : Nat) (payload : Payload)
  /-- Look at the timer. -/
  | timers
  /-- Deal with a frame that came in. -/
  | inbound (frame : Bytes)
  | flush
  | receive (buffer : Bytes)
  | outside (o : Outside L)

/-- The endpoint after it was used at a time. -/
def Use.apply (now : Nat) : Use L → Endpoint L → Endpoint L
  | transmit room payload => (Operation.transmit now room payload.fill).apply
  | timers => (Operation.pollTimers now).apply
  | inbound frame => (Operation.handle frame).apply
  | flush => Operation.flush.apply
  | receive buffer => (Operation.receive buffer).apply
  | outside o => fun e => { e with link := o.change e.link }

/-- The same use over a link that keeps a record. -/
def Use.recorded : Use L → Use (Recorded L)
  | transmit room payload => .transmit room payload
  | timers => .timers
  | inbound frame => .inbound frame
  | flush => .flush
  | receive buffer => .receive buffer
  | outside o => .outside o.recorded

/-- The endpoint after it was used so, each time after some time had passed. -/
def after (now : Nat) (e : Endpoint L) : List (Nat × Use L) → Endpoint L
  | [] => e
  | (elapsed, use) :: rest => after (now + elapsed) (use.apply (now + elapsed) e) rest

/-- What a use does to the resolution, and the frames that are submitted during it. -/
def Use.beat (now : Nat) (use : Use L) (f : Endpoint (Recorded L)) : Beat where
  time := now
  before := f.resolver
  after := (use.recorded.apply now f).resolver
  frames := (use.recorded.apply now f).link.frames.drop f.link.frames.length

/-- The beats of a run over a link that keeps a record. -/
def beats (now : Nat) (f : Endpoint (Recorded L)) : List (Nat × Use L) → List Beat
  | [] => []
  | (elapsed, use) :: rest =>
      use.beat (now + elapsed) f :: beats (now + elapsed) (use.recorded.apply (now + elapsed) f) rest

variable [PooledTransport L] {total : Nat} {e : Endpoint L} {f : Endpoint (Recorded L)}

/-- A use leaves the record beside the run. -/
theorem Use.apply_watched (use : Use L) (now : Nat) (h : Watched total none e f) :
    Watched total none (use.apply now e) (use.recorded.apply now f) := by
  cases use with
  | transmit room payload => exact (Operation.transmit now room payload.fill).apply_paired h
  | timers => exact (Operation.pollTimers now).apply_paired h
  | inbound frame => exact (Operation.handle frame).apply_paired h
  | flush => exact Operation.flush.apply_paired h
  | receive buffer => exact (Operation.receive buffer).apply_paired h
  | outside o =>
    obtain ⟨r, rfl, hr⟩ := h
    have hlink : r.link = e.link := hr.link_eq
    refine ⟨{ r with link := o.change r.link }, rfl, ?_⟩
    rw [hlink]
    exact hr.outside (o.pool_eq e.link) True.intro

theorem Use.exists_submits (use : Use L) (now : Nat) (h : Watched total none e f) :
    ∃ frames, Submits now f (use.recorded.apply now f) frames := by
  cases use with
  | transmit room payload => exact transmit_submits now room payload.appends h
  | timers => exact pollTimers_submits now h
  | inbound frame => exact handle_submits now frame h
  | flush =>
    have hframes : HasSubmitted f.link.frames (Endpoint.flush.state f) := flush_submits f rfl
    have hsettled := settled_aside.flush f ⟨rfl, rfl⟩
    refine ⟨[], submits_nil hframes ?_⟩
    show Resolver.Step now f.resolver 0 (Endpoint.flush.state f).resolver
    rw [hsettled.2]
    exact .rest
  | receive buffer => exact ⟨[], submits_nil (Recorded.receive_frames f.link buffer) .rest⟩
  | outside o => exact ⟨[], submits_nil rfl .rest⟩

/-- A use is one step of the resolution, with what was submitted during it. -/
theorem Use.beat_submits (use : Use L) (now : Nat) (h : Watched total none e f) :
    Submits now f (use.recorded.apply now f) (use.beat now f).frames := by
  obtain ⟨frames, hsubmits⟩ := use.exists_submits now h
  have hframes : (use.beat now f).frames = frames := by
    rw [beat, hsubmits.frames_eq, List.drop_left]
  rw [hframes]
  exact hsubmits

/-! ## Runs -/

/-- A run over a link that keeps a record is the run of the link below, with its record beside it. -/
theorem after_watched (uses : List (Nat × Use L)) (now : Nat) (h : Watched total none e f) :
    Watched total none (after now e uses)
      (after now f (uses.map fun moment => (moment.1, moment.2.recorded))) := by
  induction uses generalizing now e f with
  | nil => exact h
  | cons moment rest ih => exact ih _ (moment.2.apply_watched (now + moment.1) h)

/-- What was submitted in a run is what was submitted in its beats. -/
theorem after_frames (uses : List (Nat × Use L)) (now : Nat) (h : Watched total none e f) :
    (after now f (uses.map fun moment => (moment.1, moment.2.recorded))).link.frames =
      f.link.frames ++ (beats now f uses).flatMap Beat.frames := by
  induction uses generalizing now e f with
  | nil => exact (List.append_nil _).symm
  | cons moment rest ih =>
    have hrest := ih (now + moment.1) (moment.2.apply_watched (now + moment.1) h)
    rw [(moment.2.beat_submits (now + moment.1) h).frames_eq, List.append_assoc] at hrest
    exact hrest

/-- The beats of a run follow one another, each a step of the resolution. -/
theorem beats_linked (uses : List (Nat × Use L)) (now : Nat) (h : Watched total none e f) :
    Beat.Linked now f.resolver (beats now f uses) := by
  induction uses generalizing now e f with
  | nil => exact .nil
  | cons moment rest ih =>
    exact .cons rfl (Nat.le_add_right now moment.1)
      (moment.2.beat_submits (now + moment.1) h).step
      (ih _ (moment.2.apply_watched (now + moment.1) h))

/-- In every beat of a run, datagrams go where the peer is thought to be. -/
theorem beats_addressed (uses : List (Nat × Use L)) (now : Nat) (h : Watched total none e f) :
    ∀ beat ∈ beats now f uses, ∀ frame ∈ beat.frames, frame.word16 12 = etherTypeIpv4 →
      frame.take 6 = beat.before.peerMac.bytes := by
  induction uses generalizing now e f with
  | nil => exact fun beat hbeat => nomatch hbeat
  | cons moment rest ih =>
    exact List.forall_mem_cons.mpr ⟨(moment.2.beat_submits (now + moment.1) h).addressed,
      ih _ (moment.2.apply_watched (now + moment.1) h)⟩

/-- Whatever an endpoint is used for, and whatever comes in: the questions for the peer's address are
bounded in number and apart in time, giving up comes after the last of them, what is resolved stays
resolved, and before that datagrams go to everyone.  The frames are those that were submitted to the
link, which are written down in a run that is otherwise the same. -/
theorem resolution_lawful (link : L) (config : Config)
    (haccounts : (Transport.pool link).Accounts []) (start : Nat) (uses : List (Nat × Use L)) :
    Beat.Lawful config (beats start (new { link := link } config) uses) ∧
      ∃ r : Recorded L,
        after start (new { link := link } config)
            (uses.map fun moment => (moment.1, moment.2.recorded)) =
          (after start (new link config) uses).withLink r ∧
        r.link = (after start (new link config) uses).link ∧
        r.frames = (beats start (new { link := link } config) uses).flatMap Beat.frames := by
  have hcustody : Recorded.Custody (Tally.trivial L) (Transport.pool link).buffers.length none 0
      link { link := link } :=
    ⟨rfl, haccounts, rfl, by simp, True.intro⟩
  have hwatched : Watched (Transport.pool link).buffers.length none (new link config)
      (new { link := link } config) :=
    ⟨{ link := link }, rfl, hcustody⟩
  refine ⟨lawful_of_linked (beats_linked uses start hwatched)
    (beats_addressed uses start hwatched), ?_⟩
  obtain ⟨r, hrun, hr⟩ := after_watched uses start hwatched
  refine ⟨r, hrun, hr.link_eq, ?_⟩
  have hframes := after_frames uses start hwatched
  rw [hrun] at hframes
  exact hframes

/-! A peer that is asked for in vain at first, and answers the next time. -/

namespace Inquiry

def config : Config :=
  { target := some (Ipv4Address.ofBytes [10, 0, 0, 2]), retryInterval := 500, maxRetries := 2 }

def link : MemoryLink := MemoryLink.ofQueue Mac.zero 2

def datagram : Use MemoryLink := .transmit 2 ⟨Writer.putBytes [1, 2], Writer.putBytes_appends _⟩

/-- The peer's answer. -/
def answer : Bytes :=
  let peer := Mac.ofBytes [2, 0, 0, 0, 0, 1]
  let question := ArpPacket.request Mac.zero Ipv4Address.unspecified (Ipv4Address.ofBytes [10, 0, 0, 2])
  Header.encode (⟨Mac.zero, peer, etherTypeArp⟩ : EthernetHeader) ++
    Header.encode (question.reply peer)

def uses : List (Nat × Use MemoryLink) :=
  [(0, datagram), (499, .timers), (1, .timers), (500, .timers), (0, datagram),
    (10, .inbound answer), (0, datagram), (1000, .timers)]

theorem resolution_lawful_inquiry :
    link.pool.Accounts [] ∧ Beat.Lawful config (beats 0 (new { link } config) uses) ∧
      (beats 0 (new { link } config) uses).map Beat.asked = [1, 0, 1, 0, 1, 0, 0, 0] ∧
      (beats 0 (new { link } config) uses).map (fun beat => beat.after.peerMac.bytes) =
        List.replicate 5 Mac.broadcast.bytes ++ List.replicate 3 [2, 0, 0, 0, 0, 1] := by
  refine ⟨TransmitPool.ofCount_accounts 2,
    (resolution_lawful link config (TransmitPool.ofCount_accounts 2) 0 uses).1, ?_, ?_⟩
  · decide +kernel
  · decide +kernel

end Inquiry

end Endpoint

end RomCast
