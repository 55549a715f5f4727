import RomCast.Proofs.Link.Attempts
import RomCast.Proofs.Link.Caller

set_option autoImplicit false

/-!
# A raw socket looks like a link in memory

A caller cannot tell a link over a raw socket from a link in memory that sends, each time, as many
frames as the kernel lets through.  The two are called in step (`Twin`), and what the kernel sees is
written down beside them.  Whatever the kernel answers, both links hand out the same descriptors and
go through the same buffers, and the wire of the link in memory is what was attempted and did not
block (`raw_refines_memory`).
-/

namespace RomCast

/-- Two links that are called in step, and what has been written down: the attempts to send over the
socket, the frames that were submitted, as they were then, and what each link has answered. -/
structure Twin where
  raw : Caller RawLink
  memory : Caller MemoryLink
  attempts : List Transmission := []
  submissions : List Bytes := []
  answers : List Answer := []
  mirrored : List Answer := []

namespace Twin

/-- Two links of the same size that have not been called. -/
def start (mac : Mac) (interface : Int32) (count : Nat) (socket : Socket) : Twin where
  raw := { link := { mac, interface, pool := TransmitPool.ofCount count, socket } }
  memory := { link := MemoryLink.ofQueue mac count }

/-- The attempts that a call makes. -/
def attemptsAt (raw : Caller RawLink) : Call → List Transmission
  | .process => raw.link.attempts
  | _ => []

/-- Before the link in memory is made to send, it is told how many frames to send. -/
def pace (memory : Caller MemoryLink) (n : Nat) : Call → Caller MemoryLink
  | .process => { memory with link := { memory.link with batch := some n } }
  | _ => memory

/-- One call of both links. -/
def step (t : Twin) (call : Call) : Twin :=
  let attempts := attemptsAt t.raw call
  let raw := t.raw.perform call
  let memory := (pace t.memory (Transmission.through attempts).length call).perform call
  { raw := raw.2
    memory := memory.2
    attempts := t.attempts ++ attempts
    submissions := t.submissions ++ t.raw.submission call
    answers := t.answers ++ [raw.1]
    mirrored := t.mirrored ++ [memory.1] }

/-- A number of calls, one after the other. -/
def run (t : Twin) (calls : List Call) : Twin := calls.foldl step t

/-! ## The invariant -/

/-- What has arrived and is not skipped. -/
def heard (socket : Socket) : List Arrival := socket.arrivals.filter fun a => !a.isSkipped

/-- The answers to calls other than those to receive. -/
def plain (answers : List Answer) : List Answer := answers.filter fun a => a.reception?.isNone

/-- Both links are in step after these calls, and everything went as it should. -/
structure Sound (socket : Socket) (t : Twin) (calls : List Call) : Prop where
  owns : t.raw.Owns
  alike : t.raw.Alike t.memory
  worked : t.raw.link.Worked socket t.attempts t.submissions
  pipeline : t.memory.link.pipeline = t.submissions
  answers : plain t.mirrored = plain t.answers
  /-- What has not been received is received by the calls to come. -/
  received : ∀ rooms, receptions (heard socket) (calls.filterMap Call.room? ++ rooms) =
    t.answers.filterMap Answer.reception? ++ receptions (heard t.raw.link.socket) rooms

variable {socket : Socket} {t : Twin} {calls : List Call}

theorem sound_start (mac : Mac) (interface : Int32) (count : Nat) (socket : Socket) :
    Sound socket (start mac interface count socket) [] := by
  refine ⟨TransmitPool.ofCount_accounts count, ⟨rfl, rfl, rfl, rfl⟩, ?_, rfl, rfl, fun _ => rfl⟩
  refine ⟨rfl, ?_, ?_, rfl, (List.append_nil _).symm⟩
  · intro k a ha
    cases ha
  · intro k a ha
    cases ha

/-- The invariant after one more call. -/
theorem Sound.after (h : Sound socket t calls) (call : Call)
    (halike : (t.step call).raw.Alike (t.step call).memory)
    (hworked : (t.step call).raw.link.Worked socket (t.step call).attempts
      (t.step call).submissions)
    (hpipeline : (t.step call).memory.link.pipeline = (t.step call).submissions)
    (hanswer : plain (t.step call).mirrored = plain (t.step call).answers)
    (hreceived : ∀ rooms, receptions (heard t.raw.link.socket) (call.room?.toList ++ rooms) =
      (t.raw.perform call).1.reception?.toList ++
        receptions (heard (t.raw.perform call).2.link.socket) rooms) :
    Sound socket (t.step call) (calls ++ [call]) := by
  refine ⟨h.owns.perform call, halike, hworked, hpipeline, hanswer, fun rooms => ?_⟩
  have hrooms : (calls ++ [call]).filterMap Call.room? =
      calls.filterMap Call.room? ++ call.room?.toList := by
    cases hroom : call.room? <;> simp [hroom]
  have hanswers : (t.answers ++ [(t.raw.perform call).1]).filterMap Answer.reception? =
      t.answers.filterMap Answer.reception? ++
        (t.raw.perform call).1.reception?.toList := by
    cases hreception : (t.raw.perform call).1.reception? <;> simp [hreception]
  show _ = (t.answers ++ [(t.raw.perform call).1]).filterMap Answer.reception? ++
    receptions (heard (t.raw.perform call).2.link.socket) rooms
  rw [hrooms, List.append_assoc, h.received, hreceived, hanswers, List.append_assoc]

theorem plain_concat {answers mirrored : List Answer} (h : plain mirrored = plain answers)
    {a b : Answer} (hab : b = a ∨ (a.reception?.isSome ∧ b.reception?.isSome)) :
    plain (mirrored ++ [b]) = plain (answers ++ [a]) := by
  unfold plain at h ⊢
  rw [List.filter_append, List.filter_append, h]
  rcases hab with rfl | ⟨ha, hb⟩
  · rfl
  · have hskip : a.reception?.isNone = false := by rw [← Option.not_isSome, ha]; rfl
    have hskip' : b.reception?.isNone = false := by rw [← Option.not_isSome, hb]; rfl
    simp [hskip, hskip']

/-- A call that neither sends nor receives. -/
theorem Sound.quiet (h : Sound socket t calls) {call : Call} (hprocess : call ≠ .process)
    (hreceive : call.room? = none) : Sound socket (t.step call) (calls ++ [call]) := by
  have hstep : t.step call =
      { raw := (t.raw.perform call).2
        memory := (t.memory.perform call).2
        attempts := t.attempts ++ []
        submissions := t.submissions ++ t.raw.submission call
        answers := t.answers ++ [(t.raw.perform call).1]
        mirrored := t.mirrored ++ [(t.memory.perform call).1] } := by
    cases call <;> first | rfl | exact absurd rfl hprocess
  have hwaiting : (t.raw.perform call).2.link.pool.waiting =
      t.raw.link.pool.waiting ++ t.raw.submission call := h.owns.waiting_perform hprocess
  obtain ⟨hanswer, hpool, hheld⟩ := h.alike.perform hprocess hreceive
  -- On either side nothing but the buffers changes.
  have hraw : (t.raw.perform call).2.link.socket = t.raw.link.socket ∧
      (t.raw.perform call).2.link.mac = t.raw.link.mac := by
    rcases t.raw.link_perform hprocess hreceive with hsame | ⟨p, hset⟩
    · rw [hsame]
      exact ⟨rfl, rfl⟩
    · rw [hset]
      exact ⟨rfl, rfl⟩
  have hmemory : (t.memory.perform call).2.link.outbound = t.memory.link.outbound ∧
      (t.memory.perform call).2.link.mac = t.memory.link.mac := by
    rcases t.memory.link_perform hprocess hreceive with hsame | ⟨p, hset⟩
    · rw [hsame]
      exact ⟨rfl, rfl⟩
    · rw [hset]
      exact ⟨rfl, rfl⟩
  have hmac : (t.memory.perform call).2.link.mac = (t.raw.perform call).2.link.mac := by
    rw [hmemory.2, hraw.2]
    exact h.alike.mac
  have hpool' : (t.memory.perform call).2.link.pool = (t.raw.perform call).2.link.pool := hpool
  have hbefore : t.memory.link.pool = t.raw.link.pool := h.alike.pool
  refine h.after call ?_ ?_ ?_ ?_ fun rooms => ?_
  · rw [hstep]
    exact ⟨hmac, rfl, hpool, hheld⟩
  · rw [hstep, List.append_nil]
    exact h.worked.queue hwaiting (by rw [hraw.1]) (by rw [hraw.1])
  · rw [hstep, ← h.pipeline]
    unfold MemoryLink.pipeline
    rw [hmemory.1, hpool', hwaiting, hbefore, List.append_assoc]
  · rw [hstep]
    exact plain_concat h.answers (Or.inl hanswer)
  · rw [hreceive, t.raw.reception?_perform hreceive, hraw.1]
    rfl

/-- A call to send. -/
theorem Sound.process (h : Sound socket t calls) :
    Sound socket (t.step .process) (calls ++ [.process]) := by
  have hpool : t.memory.link.pool = t.raw.link.pool := h.alike.pool
  obtain ⟨harrivals, hmac⟩ :=
    t.raw.link.arrivals_sendWaiting t.raw.link.pool.submitted.length
  let n := (Transmission.through t.raw.link.attempts).length
  let paced : MemoryLink := (pace t.memory n .process).link
  -- The link in memory is told to send what comes through, and it has so much to send.
  have hquota : paced.quota = n := by
    have hthrough : n ≤ t.raw.link.attempts.length := Transmission.length_through_le _
    have htries : t.raw.link.attempts.length ≤ t.raw.link.pool.submitted.length :=
      t.raw.link.length_attemptsIn_le _
    show min n t.memory.link.pool.submitted.length = n
    rw [hpool]
    exact Nat.min_eq_left (Nat.le_trans hthrough htries)
  have hmemory : (t.step .process).memory.link = paced.sendFronts paced.quota := rfl
  rw [hquota] at hmemory
  have hqueued := paced.sendFronts_queued n
  refine h.after .process ?_ ?_ ?_ ?_ fun rooms => ?_
  · refine ⟨?_, rfl, ?_, h.alike.held⟩
    · show (t.step .process).memory.link.mac = _
      rw [hmemory, hqueued.mac]
      exact h.alike.mac.trans hmac.symm
    · show (t.step .process).memory.link.pool = (t.raw.link.sendWaiting _).pool
      rw [hmemory, MemoryLink.pool_sendFronts, RawLink.pool_sendWaiting]
      exact congrArg _ hpool
  · have hworked := h.worked.sendWaiting t.raw.link.pool.submitted.length
    rw [← List.append_nil t.submissions] at hworked
    exact hworked
  · rw [hmemory, hqueued.pipeline, List.append_nil]
    exact h.pipeline.trans (List.append_nil _).symm
  · exact plain_concat h.answers (Or.inl rfl)
  · show receptions (heard t.raw.link.socket) rooms =
      receptions (heard (t.raw.link.sendWaiting _).socket) rooms
    unfold heard
    rw [harrivals]

theorem perform_receive_raw (c : Caller RawLink) (buffer : Bytes) :
    c.perform (.receive buffer) =
      (.received ((Socket.receiveFrom buffer c.link.socket.arrivals).1.map fun length? =>
          length?.map fun n =>
            (n, (Socket.receiveFrom buffer c.link.socket.arrivals).2.1.take n)),
        { c with link := c.link.mapSocket fun socket =>
            { socket with
              arrivals := (Socket.receiveFrom buffer c.link.socket.arrivals).2.2 } }) := by
  simp only [Caller.perform, Transport.receive]
  rcases Socket.receiveFrom buffer c.link.socket.arrivals with ⟨answer, filled, rest⟩
  cases answer with
  | ok length? => rfl
  | error e => rfl

/-- Receiving from a link in memory only takes a frame that waits. -/
theorem perform_receive_memory (c : Caller MemoryLink) (buffer : Bytes) :
    ∃ outcome inbound, c.perform (.receive buffer) =
      (.received outcome, { c with link := { c.link with inbound } }) := by
  obtain ⟨⟨mac, pool, outbound, inbound, batch⟩, held⟩ := c
  cases inbound with
  | nil => exact ⟨_, [], rfl⟩
  | cons frame rest => exact ⟨_, rest, rfl⟩

/-- A call to receive. -/
theorem Sound.receive (h : Sound socket t calls) (buffer : Bytes) :
    Sound socket (t.step (.receive buffer)) (calls ++ [.receive buffer]) := by
  have hraw := perform_receive_raw t.raw buffer
  obtain ⟨outcome, inbound, hmemory⟩ := perform_receive_memory t.memory buffer
  have hstep : t.step (.receive buffer) =
      { raw := (t.raw.perform (.receive buffer)).2
        memory := (t.memory.perform (.receive buffer)).2
        attempts := t.attempts ++ []
        submissions := t.submissions ++ []
        answers := t.answers ++ [(t.raw.perform (.receive buffer)).1]
        mirrored := t.mirrored ++ [(t.memory.perform (.receive buffer)).1] } := rfl
  rw [hraw, hmemory] at hstep
  refine h.after (.receive buffer) ?_ ?_ ?_ ?_ fun rooms => ?_
  · rw [hstep]
    exact ⟨h.alike.mac, rfl, h.alike.pool, h.alike.held⟩
  · rw [hstep, List.append_nil]
    exact h.worked.queue (List.append_nil _).symm rfl rfl
  · rw [hstep]
    exact h.pipeline.trans (List.append_nil _).symm
  · rw [hstep]
    exact plain_concat h.answers (Or.inr ⟨rfl, rfl⟩)
  · rw [hraw]
    exact Socket.receiveFrom_eq buffer t.raw.link.socket.arrivals rooms

theorem Sound.step (h : Sound socket t calls) (call : Call) :
    Sound socket (t.step call) (calls ++ [call]) := by
  cases call with
  | process => exact h.process
  | receive buffer => exact h.receive buffer
  | _ => exact h.quiet nofun rfl

theorem Sound.run (h : Sound socket t calls) (more : List Call) :
    Sound socket (t.run more) (calls ++ more) := by
  induction more generalizing t calls with
  | nil =>
    rw [List.append_nil]
    exact h
  | cons call rest ih =>
    have hrest := ih (h.step call)
    rw [List.append_assoc] at hrest
    exact hrest

/-- A link over a raw socket does what a link in memory of the same size does. -/
structure Refines (socket : Socket) (t : Twin) (calls : List Call) : Prop where
  /-- All calls but those to receive are answered alike, with the same descriptors. -/
  answers : plain t.mirrored = plain t.answers
  held : t.memory.held = t.raw.held
  /-- The buffers are the same. -/
  pool : t.memory.link.pool = t.raw.link.pool
  /-- The wire is what was attempted and did not block. -/
  wire : t.memory.link.outbound = Transmission.through t.attempts
  /-- What was submitted is through or waits, in the order and with the bytes of its submission. -/
  order : t.submissions = Transmission.through t.attempts ++ t.raw.link.pool.waiting
  /-- Each attempt is for the oldest submission that is not through: one that blocked is repeated as
  it is, and one that did not is not. -/
  tried : ∀ (k : Nat) (a : Transmission), t.attempts[k]? = some a →
    t.submissions[(Transmission.through (t.attempts.take k)).length]? = some a.frame
  /-- The kernel has answered the attempts in turn, -/
  refusal : ∀ (k : Nat) (a : Transmission), t.attempts[k]? = some a →
    a.refusal = socket.refusals[k]?.join
  /-- and has the frames of those it accepted, no submission twice. -/
  sent : t.raw.link.socket.sent =
    socket.sent ++ (t.attempts.filter Transmission.accepted).map Transmission.frame
  once : ((t.attempts.filter Transmission.accepted).map Transmission.frame).Sublist t.submissions
  /-- What arrives is received in order, each time into the room that there is; frames that the host
  sent and interrupted calls are skipped, and nothing else is. -/
  received : t.answers.filterMap Answer.reception? =
    receptions (heard socket) (calls.filterMap Call.room?)

/-- Whatever the kernel answers, and whatever is asked of the two links. -/
theorem raw_refines_memory (mac : Mac) (interface : Int32) (count : Nat) (socket : Socket)
    (calls : List Call) :
    Refines socket ((start mac interface count socket).run calls) calls := by
  have h := (sound_start mac interface count socket).run calls
  rw [List.nil_append] at h
  have hpool : ((start mac interface count socket).run calls).memory.link.pool =
      ((start mac interface count socket).run calls).raw.link.pool := h.alike.pool
  have hwire := h.pipeline
  rw [h.worked.order, MemoryLink.pipeline, hpool] at hwire
  have hsublist :
      (Transmission.through ((start mac interface count socket).run calls).attempts).Sublist
        ((start mac interface count socket).run calls).submissions := by
    rw [h.worked.order]
    exact List.sublist_append_left _ _
  have hreceived := h.received []
  rw [List.append_nil, receptions_nil, List.append_nil] at hreceived
  exact
    { answers := h.answers
      held := h.alike.held
      pool := hpool
      wire := List.append_cancel_right hwire
      order := h.worked.order
      tried := h.worked.tried
      refusal := h.worked.refusal
      sent := h.worked.sent
      once := (Transmission.accepted_sublist _).trans hsublist
      received := hreceived.symm }

/-- One send blocks, the next one fails: the first frame is tried twice and dropped, and the second
one is accepted. -/
example :
    let t := (start Mac.zero 1 2 { refusals := [some .wouldBlock, some .ioError] }).run
      [.alloc 1, .store 0 [7], .submit 0, .alloc 1, .store 0 [8], .submit 0, .process, .process]
    t.attempts.map Transmission.frame = [[7], [7], [8]] ∧ t.memory.link.outbound = [[7], [8]] ∧
      t.raw.link.socket.sent = [[8]] := by
  decide +kernel

end Twin

end RomCast
