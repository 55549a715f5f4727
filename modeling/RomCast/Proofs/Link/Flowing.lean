import RomCast.Proofs.Link.Attempts

set_option autoImplicit false

/-!
# Links that flow

A link flows when it sends at least one of the frames that wait whenever it is asked to, and loses
none: a link in memory that is not held up, a link over a raw socket whose kernel accepts every
send.  What such a link has sent, followed by what waits, is its pipeline, and nothing but a
submission changes it (`Flowed`).  What such a link receives is decided by what has come in, frame
by frame (`Receives`).
-/

namespace RomCast

/-! ## What comes in -/

/-- What can come in at a link: frames, and for some links failures. -/
class Incoming (A : Type) where
  /-- The frame that is received, if one is. -/
  frame? : A → Option Bytes
  /-- Whether this is a failure instead of a frame. -/
  isFault : A → Bool
  frame?_of_isFault : ∀ a, isFault a = true → frame? a = none

namespace Incoming

variable {A : Type} [Incoming A]

/-- The frames that are received of what has come in, in order. -/
def frames (items : List A) : List Bytes := items.filterMap frame?

/-- The same without the failures. -/
def faultless (items : List A) : List A := items.filter fun a => !isFault a

theorem frames_append (first second : List A) :
    frames (first ++ second) = frames first ++ frames second :=
  List.filterMap_append

/-- What has been passed over brings no frame. -/
theorem frames_eq_nil {items : List A} (h : ∀ a ∈ items, frame? a = none) : frames items = [] :=
  List.filterMap_eq_nil_iff.mpr h

theorem faultless_append (first second : List A) :
    faultless (first ++ second) = faultless first ++ faultless second :=
  List.filter_append ..

/-- Failures bring no frames. -/
theorem frames_faultless (items : List A) : frames (faultless items) = frames items := by
  induction items with
  | nil => rfl
  | cons a rest ih =>
    unfold faultless frames at ih ⊢
    cases hfault : isFault a with
    | true =>
      rw [List.filter_cons_of_neg (by simp [hfault]), ih,
        List.filterMap_cons_none (frame?_of_isFault a hfault)]
    | false =>
      rw [List.filter_cons_of_pos (by simp [hfault]), List.filterMap_cons, List.filterMap_cons, ih]

theorem countP_faultless (items : List A) : (faultless items).countP isFault = 0 := by
  rw [List.countP_eq_zero]
  intro a ha
  simpa using (List.mem_filter.mp ha).2

end Incoming

open Incoming (frame? isFault frames faultless)

/-- How a receive call ends: its answer, the buffer, and what has not been received yet. -/
inductive Receives {A : Type} [Incoming A] (buffer : Bytes) :
    List A → Except LinkError (Option Nat) → Bytes → List A → Prop where
  /-- The oldest frame is received, cut to the length of the buffer. -/
  | frame {passed rest : List A} {a : A} {frame buffer' : Bytes}
      (hpassed : ∀ x ∈ passed, frame? x = none) (hframe : frame? a = some frame)
      (hbuffer : buffer'.take (min frame.length buffer.length) = frame.take buffer.length) :
      Receives buffer (passed ++ a :: rest) (.ok (some (min frame.length buffer.length))) buffer'
        rest
  /-- Nothing is left that is received. -/
  | nothing {items : List A} {buffer' : Bytes} (hitems : ∀ x ∈ items, frame? x = none) :
      Receives buffer items (.ok none) buffer' []
  /-- A failure comes before the next frame. -/
  | fault {passed rest : List A} {a : A} {answer : Except LinkError (Option Nat)} {buffer' : Bytes}
      (hpassed : ∀ x ∈ passed, frame? x = none) (hfault : isFault a = true)
      (hanswer : ∀ n, answer ≠ .ok (some n)) :
      Receives buffer (passed ++ a :: rest) answer buffer' rest

/-- A link of which one sees what has come in and what has gone out. -/
class Conduit (L : Type) (A : outParam Type) [Incoming A] [Transport L] where
  /-- What has come in and was not received yet, the oldest first. -/
  inbox : L → List A
  /-- The link with something else in its inbox. -/
  setInbox : List A → L → L
  /-- What was sent, the oldest first. -/
  sent : L → List Bytes
  /-- Whether the link sends what waits when it is asked to. -/
  Flows : L → Prop

/-- A link that is the same whichever way it came to its buffers. -/
class ExactTransport (L : Type) [Transport L] : Prop extends PooledTransport L where
  setPool_setPool : ∀ (p q : TransmitPool) (l : L),
    Transport.setPool p (Transport.setPool q l) = Transport.setPool p l
  setPool_pool : ∀ l : L, Transport.setPool (Transport.pool l) l = l

/-- What the frames and buffers of a conduit have to do with each other. -/
class FlowingTransport (L : Type) (A : outParam Type) [Incoming A] [Transport L] [Conduit L A] :
    Prop extends ExactTransport L where
  inbox_setPool : ∀ (p : TransmitPool) (l : L),
    Conduit.inbox (Transport.setPool p l) = Conduit.inbox l
  sent_setPool : ∀ (p : TransmitPool) (l : L),
    Conduit.sent (Transport.setPool p l) = Conduit.sent l
  flows_setPool : ∀ (p : TransmitPool) {l : L}, Conduit.Flows l →
    Conduit.Flows (Transport.setPool p l)
  inbox_setInbox : ∀ (items : List A) (l : L), Conduit.inbox (Conduit.setInbox items l) = items
  sent_setInbox : ∀ (items : List A) (l : L),
    Conduit.sent (Conduit.setInbox items l) = Conduit.sent l
  flows_setInbox : ∀ (items : List A) {l : L}, Conduit.Flows l →
    Conduit.Flows (Conduit.setInbox items l)
  pool_setInbox : ∀ (items : List A) (l : L),
    Transport.pool (Conduit.setInbox items l) = Transport.pool l
  mac_setInbox : ∀ (items : List A) (l : L),
    Transport.mac (Conduit.setInbox items l) = Transport.mac l
  ready_eq : ∀ l : L, Transport.ready l = true
  length_inbox_le : ∀ l : L, (Conduit.inbox l).length ≤ Transport.pending l
  /-- The oldest frames that wait are sent, one of them at least. -/
  process_flows : ∀ {l : L}, Conduit.Flows l → ∃ n l', Transport.process l = .ok () l' ∧
    Transport.pool l' = TransmitPool.completeFront^[n] (Transport.pool l) ∧
    Conduit.sent l' = Conduit.sent l ++ (Transport.pool l).waiting.take n ∧
    ((Transport.pool l).waiting ≠ [] → 0 < n) ∧ Conduit.Flows l' ∧
    Conduit.inbox l' = Conduit.inbox l ∧ Transport.mac l' = Transport.mac l
  receive_flows : ∀ (l : L) (buffer : Bytes), ∃ answer buffer' rest,
    Transport.receive.result (l, buffer) = answer ∧
    Transport.receive.state (l, buffer) = (Conduit.setInbox rest l, buffer') ∧
    buffer'.length = buffer.length ∧
    Receives buffer (Conduit.inbox l) answer buffer' rest

/-! ## Links in memory -/

namespace TransmitPool

variable {p : TransmitPool}

theorem waiting_completeFront (p : TransmitPool) : p.completeFront.waiting = p.waiting.drop 1 := by
  unfold completeFront waiting
  cases hsubmitted : p.submitted with
  | nil => rw [hsubmitted]; rfl
  | cons d rest => rfl

theorem waiting_completeFronts (n : Nat) (p : TransmitPool) :
    (completeFront^[n] p).waiting = p.waiting.drop n := by
  induction n generalizing p with
  | zero => rfl
  | succ n ih =>
    rw [Function.iterate_succ_apply, ih, waiting_completeFront, List.drop_drop, Nat.add_comm]

theorem collected_of_acked_eq_nil (h : p.acked = []) : p.collected = p := by
  obtain ⟨buffers, free, submitted, acked⟩ := p
  obtain rfl : acked = [] := h
  rfl

theorem length_waiting (p : TransmitPool) : p.waiting.length = p.submitted.length :=
  List.length_map ..

end TransmitPool

instance : Incoming Bytes where
  frame? := some
  isFault _ := false
  frame?_of_isFault _ h := nomatch h

namespace MemoryLink

instance : Conduit MemoryLink Bytes where
  inbox := MemoryLink.inbound
  setInbox items link := { link with inbound := items }
  sent := MemoryLink.outbound
  Flows link := link.batch ≠ some 0

theorem outbound_sendFronts_eq (n : Nat) (link : MemoryLink) :
    (link.sendFronts n).outbound = link.outbound ++ link.pool.waiting.take n := by
  induction n generalizing link with
  | zero => exact (List.append_nil _).symm
  | succ n ih =>
    have hfront : link.sendFront.outbound = link.outbound ++ link.pool.waiting.take 1 ∧
        link.sendFront.pool.waiting = link.pool.waiting.drop 1 := by
      unfold sendFront TransmitPool.front? TransmitPool.waiting TransmitPool.completeFront
      cases hsubmitted : link.pool.submitted with
      | nil => simp [hsubmitted]
      | cons d rest => simp [TransmitPool.content, TransmitPool.buffer]
    rw [sendFronts, ih, hfront.1, hfront.2, List.append_assoc]
    cases link.pool.waiting with
    | nil => simp
    | cons frame rest => rfl

instance : FlowingTransport MemoryLink Bytes where
  setPool_setPool _ _ _ := rfl
  setPool_pool _ := rfl
  inbox_setPool _ _ := rfl
  sent_setPool _ _ := rfl
  flows_setPool _ _ h := h
  inbox_setInbox _ _ := rfl
  sent_setInbox _ _ := rfl
  flows_setInbox _ _ h := h
  pool_setInbox _ _ := rfl
  mac_setInbox _ _ := rfl
  ready_eq _ := rfl
  length_inbox_le _ := Nat.le_refl _
  process_flows {link} hflows := by
    have hqueued := sendFronts_queued link.quota link
    refine ⟨link.quota, link.sendFronts link.quota, rfl, pool_sendFronts _ link,
      outbound_sendFronts_eq _ link, ?_, ?_, hqueued.inbound, hqueued.mac⟩
    · intro hwaiting
      have hlength : link.pool.waiting.length = link.pool.submitted.length :=
        link.pool.length_waiting
      have hpos : 0 < link.pool.waiting.length := List.length_pos_iff.mpr hwaiting
      unfold quota
      cases hbatch : link.batch with
      | none => exact hlength ▸ hpos
      | some n =>
        have hn : n ≠ 0 := fun hzero => hflows (by rw [hbatch, hzero])
        show 0 < min n link.pool.submitted.length
        omega
    · exact fun hzero => hflows (hqueued.batch.symm.trans hzero)
  receive_flows link buffer := by
    obtain ⟨mac, pool, outbound, inbound, batch⟩ := link
    cases inbound with
    | nil => exact ⟨.ok none, buffer, [], rfl, rfl, rfl, .nothing nofun⟩
    | cons frame rest =>
      refine ⟨.ok (some (min frame.length buffer.length)), buffer.overwrite 0 frame, rest, rfl, rfl,
        Bytes.length_overwrite .., ?_⟩
      have hreceives : Receives buffer ([] ++ frame :: rest) _ (buffer.overwrite 0 frame) rest :=
        .frame nofun rfl (Bytes.take_overwrite_zero buffer frame)
      exact hreceives

end MemoryLink

/-! ## Links over a raw socket -/

instance : Incoming Arrival where
  frame?
    | .frame bytes mark => if mark = outgoingMark then none else some bytes
    | .fault _ => none
  isFault
    | .frame _ _ => false
    | .fault _ => true
  frame?_of_isFault a h := by
    cases a with
    | frame bytes mark => cases h
    | fault cause => rfl

namespace RawLink

instance : Conduit RawLink Arrival where
  inbox link := link.socket.arrivals
  setInbox items link := { link with socket := { link.socket with arrivals := items } }
  sent link := link.socket.sent
  Flows link := ∀ refusal ∈ link.socket.refusals, refusal = none

/-- A kernel that accepts every send lets a frame through, and goes on accepting. -/
theorem attempt?_flows {link next : RawLink} {a : Transmission} (h : Conduit.Flows link)
    (hattempt : link.attempt? = some (a, next)) :
    a.blocked = false ∧ next.pool = link.pool.completeFront ∧
      next.socket.sent = link.socket.sent ++ [a.frame] ∧ Conduit.Flows next := by
  have htries := attempt?_tries hattempt
  have haccepted : a.refusal = none := by
    rw [htries.refusal]
    cases hrefusals : link.socket.refusals with
    | nil => rfl
    | cons refusal rest => exact h refusal (by rw [hrefusals]; exact List.mem_cons_self)
  have hblocked : a.blocked = false := by simp [Transmission.blocked, haccepted]
  refine ⟨hblocked, ?_, ?_, ?_⟩
  · rw [htries.pool, hblocked]
    rfl
  · rw [htries.sent, Transmission.accepted, haccepted]
    rfl
  · intro refusal hrefusal
    rw [htries.refusals] at hrefusal
    exact h refusal (List.mem_of_mem_tail hrefusal)

/-- A kernel that accepts every send lets all frames through that are tried. -/
theorem sendWaiting_flows (n : Nat) {link : RawLink} (h : Conduit.Flows link)
    (hn : n ≤ link.pool.waiting.length) :
    (link.sendWaiting n).pool = TransmitPool.completeFront^[n] link.pool ∧
      (link.sendWaiting n).socket.sent = link.socket.sent ++ link.pool.waiting.take n ∧
      Conduit.Flows (link.sendWaiting n) := by
  induction n generalizing link with
  | zero => exact ⟨rfl, (List.append_nil _).symm, h⟩
  | succ n ih =>
    rw [sendWaiting_succ]
    cases hattempt : link.attempt? with
    | none =>
      have hfront : link.pool.front? = none := Option.map_eq_none_iff.mp hattempt
      have hsubmitted : link.pool.submitted = [] :=
        List.head?_eq_none_iff.mp (Option.map_eq_none_iff.mp hfront)
      rw [TransmitPool.length_waiting, hsubmitted] at hn
      exact absurd hn (Nat.not_succ_le_zero n)
    | some step =>
      obtain ⟨a, next⟩ := step
      obtain ⟨hblocked, hpool, hsent, hflows⟩ := attempt?_flows h hattempt
      have hwaiting := waiting_of_front? (attempt?_tries hattempt).front
      rw [hwaiting, ← hpool] at hn
      obtain ⟨hpools, hsents, hlater⟩ := ih hflows (Nat.le_of_succ_le_succ hn)
      simp only [hblocked, Bool.false_eq_true, if_false]
      refine ⟨?_, ?_, hlater⟩
      · rw [hpools, hpool, Function.iterate_succ_apply]
      · rw [hsents, hsent, hpool, hwaiting, List.append_assoc]
        rfl

/-- How a receive call ends is a matter of what arrives. -/
theorem receives_receiveFrom (buffer original : Bytes) (h : buffer.length = original.length)
    (passed arrivals : List Arrival) (hpassed : ∀ x ∈ passed, frame? x = none) :
    let received := Socket.receiveFrom buffer arrivals
    received.2.1.length = original.length ∧
      Receives original (passed ++ arrivals) received.1 received.2.1 received.2.2 := by
  induction arrivals generalizing buffer passed with
  | nil => exact ⟨h, .nothing (by simpa using hpassed)⟩
  | cons arrival rest ih =>
    have hskip (hskipped : frame? arrival = none) :
        ∀ x ∈ passed ++ [arrival], frame? x = none := by
      intro x hx
      rcases List.mem_append.mp hx with hbefore | hthis
      · exact hpassed x hbefore
      · rw [List.mem_singleton.mp hthis]
        exact hskipped
    cases arrival with
    | frame bytes mark =>
      by_cases hmark : mark = outgoingMark
      · have hnext := ih (buffer.overwrite 0 bytes) ((Bytes.length_overwrite ..).trans h) _
          (hskip (by simp [frame?, hmark]))
        rw [List.append_assoc] at hnext
        simp only [Socket.receiveFrom, hmark, if_true] at hnext ⊢
        exact hnext
      · simp only [Socket.receiveFrom, hmark, if_false]
        refine ⟨(Bytes.length_overwrite ..).trans h, ?_⟩
        rw [h]
        refine .frame hpassed (by simp [frame?, hmark]) ?_
        rw [← h]
        exact Bytes.take_overwrite_zero buffer bytes
    | fault cause =>
      by_cases hblock : cause = .wouldBlock
      · simp only [Socket.receiveFrom, hblock, if_true]
        exact ⟨h, .fault hpassed rfl (by simp)⟩
      · by_cases hinterrupted : cause = .interrupted
        · have hnext := ih buffer h _ (hskip rfl)
          rw [List.append_assoc] at hnext
          simp only [Socket.receiveFrom, hinterrupted, if_true] at hnext ⊢
          exact hnext
        · simp only [Socket.receiveFrom, hblock, hinterrupted, if_false]
          exact ⟨h, .fault hpassed rfl (by simp)⟩

instance : FlowingTransport RawLink Arrival where
  setPool_setPool _ _ _ := rfl
  setPool_pool _ := rfl
  inbox_setPool _ _ := rfl
  sent_setPool _ _ := rfl
  flows_setPool _ _ h := h
  inbox_setInbox _ _ := rfl
  sent_setInbox _ _ := rfl
  flows_setInbox _ _ h := h
  pool_setInbox _ _ := rfl
  mac_setInbox _ _ := rfl
  ready_eq _ := rfl
  length_inbox_le _ := Nat.le_refl _
  process_flows {link} hflows := by
    have hlength : link.pool.waiting.length = link.pool.submitted.length :=
      link.pool.length_waiting
    obtain ⟨hpool, hsent, hlater⟩ := sendWaiting_flows link.pool.submitted.length hflows
      (Nat.le_of_eq hlength.symm)
    obtain ⟨harrivals, hmac⟩ := arrivals_sendWaiting link.pool.submitted.length link
    refine ⟨_, _, rfl, hpool, hsent, ?_, hlater, harrivals, hmac⟩
    intro hwaiting
    rw [← hlength]
    exact List.length_pos_iff.mpr hwaiting
  receive_flows link buffer := by
    obtain ⟨hlength, hreceives⟩ := receives_receiveFrom buffer buffer rfl [] link.socket.arrivals
      fun x hx => absurd hx List.not_mem_nil
    refine ⟨_, _, _, ?_, ?_, hlength, hreceives⟩
    · show Action.result (fun s : RawLink × Bytes => Transport.receive s) (link, buffer) = _
      simp only [Action.result, Transport.receive]
      cases (Socket.receiveFrom buffer link.socket.arrivals).1 with
      | ok length => rfl
      | error cause => rfl
    · show Action.state (fun s : RawLink × Bytes => Transport.receive s) (link, buffer) = _
      simp only [Action.state, Transport.receive]
      cases (Socket.receiveFrom buffer link.socket.arrivals).1 with
      | ok length => rfl
      | error cause => rfl

end RawLink

/-! ## Exact buffers -/

namespace ExactTransport

variable {L : Type} [Transport L] [ExactTransport L]

theorem drainAcksFrom_eq {n : Nat} {l : L} (h : (Transport.pool l).acked.length = n) :
    Transport.drainAcksFrom n l = Transport.setPool (Transport.pool l).collected l := by
  induction n generalizing l with
  | zero =>
    have hacked : (Transport.pool l).acked = [] := List.eq_nil_of_length_eq_zero h
    rw [TransmitPool.collected_of_acked_eq_nil hacked, setPool_pool]
    rfl
  | succ n ih =>
    cases hpool : Transport.pool l with
    | mk buffers free submitted acked =>
      rw [hpool] at h
      cases acked with
      | nil => cases h
      | cons d rest =>
        have havailable : Transport.ackAvailable l = true := by
          rw [Transport.ackAvailable, hpool]
          rfl
        have htaken : Transport.takeAcked l =
            (some d, Transport.setPool ⟨buffers, free, submitted, rest⟩ l) := by
          rw [PooledTransport.takeAcked_eq, hpool]
          rfl
        have hreleased :
            Transport.release (Transport.setPool ⟨buffers, free, submitted, rest⟩ l) d =
              Transport.setPool ⟨buffers, d.slot :: free, submitted, rest⟩ l := by
          rw [Transport.release, PooledTransport.pool_setPool, setPool_setPool]
          rfl
        have hlength : (Transport.pool
            (Transport.setPool ⟨buffers, d.slot :: free, submitted, rest⟩ l)).acked.length = n := by
          rw [PooledTransport.pool_setPool]
          exact Nat.succ.inj h
        have hnext := ih hlength
        rw [PooledTransport.pool_setPool, setPool_setPool] at hnext
        rw [Transport.drainAcksFrom, if_pos havailable, htaken]
        simp only [hreleased, hnext]
        simp [TransmitPool.collected]

/-- Everything that was sent is collected. -/
theorem drainAcks_eq (l : L) :
    Transport.drainAcks l = Transport.setPool (Transport.pool l).collected l :=
  drainAcksFrom_eq rfl

theorem alloc_exhausted {l : L} (hfree : (Transport.pool l).free = []) {length : Nat}
    (hlength : length ≤ bufferSize) : Transport.alloc length l = .error .exhausted l := by
  have hfits : ¬ bufferSize < length := Nat.not_lt.mpr hlength
  rw [PooledTransport.alloc_eq, Action.on, TransmitPool.alloc, if_neg hfits, hfree]
  simp only [setPool_pool]

end ExactTransport

/-! ## What flows through a link -/

namespace Conduit

variable {L A : Type} [Incoming A] [Transport L] [Conduit L A]

/-- What the link has sent and will send, the oldest first. -/
def pipeline (l : L) : List Bytes := sent l ++ (Transport.pool l).waiting

/-- A link that has buffers, all of them accounted for, and sends when it is asked to. -/
structure Ready (l : L) : Prop where
  accounts : (Transport.pool l).Accounts []
  buffers : 0 < (Transport.pool l).buffers.length
  flows : Flows l

/-- A link after frames were submitted, whatever was sent meanwhile, and the buffer that a writer
holds, if any. -/
structure Flowed (held : Option Descriptor) (queued : List Bytes) (l l' : L) : Prop where
  accounts : (Transport.pool l').Accounts (held.map Descriptor.slot).toList
  buffers : (Transport.pool l').buffers.length = (Transport.pool l).buffers.length
  flows : Flows l'
  pipeline : pipeline l' = pipeline l ++ queued
  inbox : inbox l' = inbox l
  mac : Transport.mac l' = Transport.mac l

variable {l l' l'' : L} {held held' : Option Descriptor} {queued queued' : List Bytes}

theorem flowed_refl (h : Ready l) : Flowed none [] l l :=
  ⟨h.accounts, rfl, h.flows, (List.append_nil _).symm, rfl, rfl⟩

theorem Flowed.trans (h : Flowed held queued l l') (h' : Flowed held' queued' l' l'') :
    Flowed held' (queued ++ queued') l l'' := by
  refine ⟨h'.accounts, h'.buffers.trans h.buffers, h'.flows, ?_, h'.inbox.trans h.inbox,
    h'.mac.trans h.mac⟩
  rw [h'.pipeline, h.pipeline, List.append_assoc]

/-- A link goes on being ready. -/
theorem Flowed.ready (h : Flowed none queued l l') (hready : Ready l) : Ready l' :=
  ⟨h.accounts, h.buffers ▸ hready.buffers, h.flows⟩

variable [FlowingTransport L A]

/-- Buffers change hands, and perhaps one more frame waits. -/
theorem flowed_setPool {p : TransmitPool} (hflows : Flows l)
    (haccounts : p.Accounts (held.map Descriptor.slot).toList)
    (hbuffers : p.buffers.length = (Transport.pool l).buffers.length)
    (hwaiting : p.waiting = (Transport.pool l).waiting ++ queued) :
    Flowed held queued l (Transport.setPool p l) := by
  have hpool : Transport.pool (Transport.setPool p l) = p := PooledTransport.pool_setPool p l
  refine ⟨hpool.symm ▸ haccounts, hpool.symm ▸ hbuffers, FlowingTransport.flows_setPool p hflows,
    ?_, FlowingTransport.inbox_setPool p l, PooledTransport.mac_setPool p l⟩
  rw [pipeline, pipeline, FlowingTransport.sent_setPool, hpool, hwaiting, List.append_assoc]

theorem drainAcks_flowed (h : Ready l) : Flowed none [] l (Transport.drainAcks l) := by
  rw [ExactTransport.drainAcks_eq]
  exact flowed_setPool h.flows (TransmitPool.collected_accounts h.accounts) rfl
    (List.append_nil _).symm

/-- Asked to send, a link moves frames along its pipeline. -/
theorem process_flowed (h : Ready l) : ∃ n l', Transport.process l = .ok () l' ∧
    Flowed none [] l l' ∧
    Transport.pool l' = TransmitPool.completeFront^[n] (Transport.pool l) ∧
    ((Transport.pool l).waiting ≠ [] → 0 < n) := by
  obtain ⟨n, l', hprocess, hpool, hsent, hmoves, hflows, hinbox, hmac⟩ :=
    FlowingTransport.process_flows h.flows
  refine ⟨n, l', hprocess, ⟨?_, ?_, hflows, ?_, hinbox, hmac⟩, hpool, hmoves⟩
  · rw [hpool]
    exact TransmitPool.completeFronts_accounts n h.accounts
  · rw [hpool, TransmitPool.buffers_completeFronts]
  · rw [pipeline, pipeline, hsent, hpool, TransmitPool.waiting_completeFronts, List.append_assoc,
      List.take_append_drop, List.append_nil]

/-- A free buffer is handed out. -/
theorem alloc_flowed (h : Ready l) (hfree : (Transport.pool l).free ≠ []) {length : Nat}
    (hlength : length ≤ bufferSize) :
    ∃ d l', Transport.alloc length l = .ok d l' ∧ d.length = length ∧
      Flowed (some d) [] l l' := by
  rcases TransmitPool.alloc_accounts h.accounts hlength with
    ⟨hnone, -⟩ | ⟨slot, rest, -, halloc, haccounts⟩
  · exact absurd hnone hfree
  · refine ⟨⟨slot, length⟩, _, ?_, rfl,
      flowed_setPool h.flows haccounts rfl (List.append_nil _).symm⟩
    rw [PooledTransport.alloc_eq, Action.on, halloc]

/-- The front of what was written into a held buffer is submitted. -/
theorem Flowed.submit {d : Descriptor} (h : Flowed (some d) queued l l') {bytes : Bytes}
    {length : Nat} (hlength : length ≤ d.length) (hbytes : length ≤ bytes.length)
    (hd : d.length ≤ bufferSize) :
    ∃ l'', Transport.submit (d.truncate length) (Transport.store l' d bytes) = .ok () l'' ∧
      Flowed none (queued ++ [bytes.take length]) l l'' := by
  have hstored : Flowed (some d) [] l' (Transport.store l' d bytes) :=
    flowed_setPool h.flows (TransmitPool.store_accounts h.accounts bytes) List.length_set
      ((TransmitPool.waiting_store h.accounts bytes).trans (List.append_nil _).symm)
  have hpool : Transport.pool (Transport.store l' d bytes) = (Transport.pool l').store d bytes :=
    PooledTransport.pool_setPool _ _
  have hsubmitted : Flowed none [bytes.take length] (Transport.store l' d bytes)
      (Transport.setPool ((Transport.pool (Transport.store l' d bytes)).submit (d.truncate length))
        (Transport.store l' d bytes)) := by
    refine flowed_setPool hstored.flows (TransmitPool.submit_accounts hstored.accounts) rfl ?_
    rw [TransmitPool.waiting_submit, hpool,
      TransmitPool.content_store_truncate h.accounts hlength hbytes hd]
  have hall := h.trans (hstored.trans hsubmitted)
  rw [List.nil_append] at hall
  exact ⟨_, PooledTransport.submit_eq _ _, hall⟩

/-- When no buffer is free and none can be collected, sending frees one. -/
theorem free_after_process (h : Ready l) (hfree : (Transport.pool l).free = [])
    (hacked : (Transport.pool l).acked = []) :
    ∃ l', Transport.process l = .ok () l' ∧ Flowed none [] l l' ∧
      (Transport.pool (Transport.drainAcks l')).free ≠ [] := by
  obtain ⟨n, l', hprocess, hflowed, hpool, hmoves⟩ := process_flowed h
  refine ⟨l', hprocess, hflowed, ?_⟩
  have hcount (p : TransmitPool) (haccounts : p.Accounts []) :
      p.free.length + (p.submitted.length + p.acked.length) = p.buffers.length := by
    have hslots := haccounts.slots.length_eq
    simpa [TransmitPool.slots] using hslots
  have hbefore := hcount _ h.accounts
  have hafter := hcount _ hflowed.accounts
  have hbuffers := hflowed.buffers
  have hpos := h.buffers
  have hwaits : (Transport.pool l).waiting.length = (Transport.pool l).submitted.length :=
    TransmitPool.length_waiting _
  have hwaits' : (Transport.pool l').waiting.length = (Transport.pool l').submitted.length :=
    TransmitPool.length_waiting _
  rw [hfree, hacked] at hbefore
  simp only [List.length_nil] at hbefore
  have hsome : (Transport.pool l).waiting ≠ [] := List.length_pos_iff.mp (by omega)
  have hn := hmoves hsome
  have hmoved : (Transport.pool l').waiting.length = (Transport.pool l).waiting.length - n := by
    rw [hpool, TransmitPool.waiting_completeFronts, List.length_drop]
  rw [ExactTransport.drainAcks_eq, PooledTransport.pool_setPool]
  refine List.length_pos_iff.mp ?_
  simp only [TransmitPool.collected, List.length_append, List.length_reverse, List.length_map]
  omega

end Conduit

end RomCast
