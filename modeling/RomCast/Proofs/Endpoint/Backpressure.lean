import RomCast.Proofs.Endpoint.Arrival
import RomCast.Proofs.Endpoint.Outcomes
import RomCast.Proofs.Endpoint.Submitted
import RomCast.Proofs.Station.Intact

set_option autoImplicit false

/-!
# Back-pressure

A link in memory that has a buffer and sends at least one frame when it is asked to never makes its
endpoint drop a frame, however many are sent between two flushes.  A link that stands still does so
exactly when no buffer is free and none can be collected; the call that is refused then leaves only
its own count behind.  When the link moves again, everything that was submitted goes out, the oldest
first, and frames are taken again (`backpressure`).
-/

namespace RomCast

/-! ## Links that stand still -/

namespace MemoryLink

/-- No buffer is free, and none can be collected. -/
def Spent (link : MemoryLink) : Prop := link.pool.free = [] ∧ link.pool.acked = []

variable {link : MemoryLink}

theorem drainAcks_of_spent (h : link.Spent) : Transport.drainAcks link = link := by
  obtain ⟨mac, ⟨buffers, free, submitted, acked⟩, outbound, inbound, batch⟩ := link
  obtain ⟨rfl, rfl⟩ : free = [] ∧ acked = [] := h
  rw [drainAcks_eq]
  rfl

theorem process_of_stalled (h : link.batch = some 0) : Transport.process link = .ok () link := by
  have hquota : link.quota = 0 := by
    rw [quota, h]
    exact Nat.zero_min _
  show EStateM.Result.ok () (link.sendFronts link.quota) = _
  rw [hquota]
  rfl

theorem outbound_sendFronts (n : Nat) (link : MemoryLink) :
    link.outbound <+: (link.sendFronts n).outbound := by
  induction n generalizing link with
  | zero => exact List.prefix_rfl
  | succ n ih =>
    have hfront : link.outbound <+: link.sendFront.outbound := by
      unfold sendFront
      cases link.pool.front? with
      | none => exact List.prefix_rfl
      | some frame => exact List.prefix_append _ _
    exact hfront.trans (ih link.sendFront)

/-- How the link is set, and what has gone out and what has been queued so far. -/
def onward (batch : Option Nat) (sent queued : List Bytes) : Tally MemoryLink where
  Holds _ link _ := link.batch = batch ∧ sent <+: link.outbound ∧ queued <+: link.pipeline
  setPool := by
    rintro n link frames p ⟨hbatch, hsent, hqueued⟩ hwaiting
    refine ⟨hbatch, hsent, ?_⟩
    show queued <+: link.outbound ++ p.waiting
    rw [hwaiting]
    exact hqueued
  submit := by
    rintro n link frames p frame ⟨hbatch, hsent, hqueued⟩ hwaiting
    refine ⟨hbatch, hsent, hqueued.trans ?_⟩
    show link.pipeline <+: link.outbound ++ p.waiting
    rw [hwaiting, ← List.append_assoc]
    exact List.prefix_append _ _
  process := by
    rintro n link link' frames ⟨hbatch, hsent, hqueued⟩ hprocess
    obtain rfl : link.sendFronts link.quota = link' := by
      injection hprocess
    have hmoved := link.sendFronts_queued link.quota
    refine ⟨hmoved.batch.trans hbatch, hsent.trans (outbound_sendFronts _ link), ?_⟩
    rw [hmoved.pipeline, List.append_nil]
    exact hqueued
  receive := by
    rintro n link frames ⟨hbatch, hsent, hqueued⟩ buffer
    have hreceived : (link.receiveInto buffer).2.1.batch = link.batch ∧
        (link.receiveInto buffer).2.1.outbound = link.outbound ∧
        (link.receiveInto buffer).2.1.pool = link.pool := by
      unfold receiveInto
      split
      · exact ⟨rfl, rfl, rfl⟩
      · exact ⟨rfl, rfl, rfl⟩
    obtain ⟨hsame, hwire, hpool⟩ := hreceived
    refine ⟨hsame.trans hbatch, hwire.symm ▸ hsent, ?_⟩
    show queued <+: (link.receiveInto buffer).2.1.outbound ++
      (link.receiveInto buffer).2.1.pool.waiting
    rw [hwire, hpool]
    exact hqueued

end MemoryLink

namespace Endpoint

variable {e : OnMemory} {length room : Nat} {frame : Bytes}

/-! ## Reserving -/

/-- On a link that stands still nothing changes by asking it to send. -/
theorem reserveTries_of_stalled (hlength : length ≤ bufferSize) (hbatch : e.link.batch = some 0)
    (hspent : e.link.Spent) (tries : Nat) :
    reserveTries length tries e = .ok none e.dropped := by
  induction tries with
  | zero => rfl
  | succ tries ih =>
    have halloc : Transport.alloc length e.link = .error .exhausted e.link := by
      show (TransmitPool.alloc length).on MemoryLink.pool Transport.setPool e.link = _
      rw [Action.on, TransmitPool.alloc, if_neg (Nat.not_lt.mpr hlength), hspent.1]
      rfl
    simp only [reserveTries, Action.bind_apply, Action.attempt, onLink, Action.on, halloc,
      MemoryLink.process_of_stalled hbatch, drainAcks, Action.modify_apply,
      MemoryLink.drainAcks_of_spent hspent, ih]

theorem reserve_of_stalled (hlength : length ≤ bufferSize) (hbatch : e.link.batch = some 0)
    (hspent : e.link.Spent) : reserve length e = .ok none e.dropped := by
  simp only [reserve, Action.bind_apply, drainAcks, Action.modify_apply,
    MemoryLink.drainAcks_of_spent hspent]
  exact reserveTries_of_stalled hlength hbatch hspent _

/-- A buffer that is free or can be collected is found, whatever the link does. -/
theorem reserve_of_not_spent (hlength : length ≤ bufferSize) (h : e.link.pool.Accounts [])
    (havailable : ¬ e.link.Spent) :
    ∃ d e', reserve length e = .ok (some d) e' ∧ Reserves e e' length (some d) := by
  obtain ⟨d?, e', hreserve, hreserves, -⟩ := reserve_reserves length hlength e h
  cases d? with
  | some d => exact ⟨d, e', hreserve, hreserves⟩
  | none =>
    -- The first try finds a buffer, since what was sent has been collected before it.
    have hdrained : (Transport.drainAcks e.link).pool.Accounts [] := by
      rw [MemoryLink.drainAcks_eq]
      exact TransmitPool.collected_accounts h
    have hfree : (Transport.drainAcks e.link).pool.free ≠ [] := by
      rw [MemoryLink.drainAcks_eq]
      intro hnil
      obtain ⟨hacked, hnone⟩ := List.append_eq_nil_iff.mp hnil
      exact havailable ⟨hnone, by simpa using hacked⟩
    rcases TransmitPool.alloc_accounts hdrained hlength with
      ⟨hnil, -⟩ | ⟨slot, rest, -, halloc, -⟩
    · exact absurd hnil hfree
    · let drained : MemoryLink := Transport.drainAcks e.link
      have hsome : Transport.alloc length drained = .ok ⟨slot, length⟩
          (Transport.setPool { drained.pool with free := rest } drained) := by
        show (TransmitPool.alloc length).on MemoryLink.pool Transport.setPool _ = _
        rw [Action.on, halloc]
      have hfirst : reserve length e = .ok (some ⟨slot, length⟩) _ :=
        reserveTries_of_alloc (e := { e with link := drained }) hsome maxAllocRetries
      rw [hfirst] at hreserve
      injection hreserve with hd
      cases hd

/-- A link that flows gives every frame that fits a buffer its buffer, in the end. -/
theorem reserve_of_flows (hlength : length ≤ bufferSize) (h : e.link.pool.Accounts [])
    (hflows : e.link.Flows) :
    ∃ d e', reserve length e = .ok (some d) e' ∧ Reserves e e' length (some d) := by
  obtain ⟨d?, e', hreserve, hreserves, hsome⟩ := reserve_reserves length hlength e h
  cases d? with
  | none => exact absurd rfl (hsome hflows)
  | some d => exact ⟨d, e', hreserve, hreserves⟩

/-- On a link that flows no frame is left without a buffer, whatever its length. -/
theorem reserve_ne_none (h : e.link.pool.Accounts []) (hflows : e.link.Flows) (e' : OnMemory) :
    reserve length e ≠ .ok none e' := by
  rcases Nat.lt_or_ge bufferSize length with hlong | hlength
  · obtain ⟨e₁, hreserve⟩ := reserve_tooLarge hlong e
    rw [hreserve]
    exact nofun
  · obtain ⟨d, e₁, hreserve, -⟩ := reserve_of_flows hlength h hflows
    rw [hreserve]
    exact nofun

/-! ## Sending with a buffer -/

theorem send_of_reserve {d : Descriptor} {e₁ : OnMemory}
    (h : reserve frame.length e = .ok (some d) e₁) :
    ∃ e', (send frame : Action FrameError OnMemory Bool) e = .ok true e' := by
  unfold send
  rw [Action.bind_apply, Action.mapError, h]
  exact ⟨_, rfl⟩

/-- Whatever stands in a writer with this much room behind the headers, the payload is written. -/
def FillSucceeds (room : Nat) (fill : Action GuardError Writer Unit) : Prop :=
  ∀ w : Writer, w.position = frameOverhead → w.buffer.length = frameOverhead + room →
    ∃ w', fill w = .ok () w'

/-- The headers fit in front of the payload. -/
theorem write_of_fillSucceeds (a : Addressing) {fill : Action GuardError Writer Unit}
    (hfill : FillSucceeds room fill) {buffer : Bytes} (hbuffer : buffer.length = 42 + room) :
    ∃ n, (a.write fill).result { buffer } = .ok n := by
  have hethernet : (Header.encode a.ethernet).length = 14 := LawfulHeader.length_encode a.ethernet
  let front : Bytes := buffer.overwrite 0 (Header.encode a.ethernet)
  have hfront : front.length = 42 + room := (Bytes.length_overwrite ..).trans hbuffer
  have hreserve (b : Bytes) (position n : Nat) (hroom : n ≤ b.length - position) :
      Writer.reserve n ⟨b, position⟩ = .ok position ⟨b, position + n⟩ := by
    rw [Writer.reserve, Writer.remaining, if_pos hroom]
  have hput : Writer.put a.ethernet { buffer } = .ok () ⟨front, 14⟩ := by
    have hclaim := hreserve buffer 0 14 (by omega)
    rw [← hethernet] at hclaim
    simp only [Writer.put, Writer.putBytes, Action.bind_apply, hclaim, Writer.patch,
      Action.modify_apply]
    rw [hethernet]
  have hip : Header.size Ipv4Header = 20 := rfl
  have hudp : Header.size UdpHeader = 8 := rfl
  have hbehind := hreserve front 14 20 (by omega)
  have hlast := hreserve front 34 8 (by omega)
  obtain ⟨filled, hfilled⟩ := hfill ⟨front, 42⟩ rfl hfront
  obtain ⟨n, w, hdone⟩ : ∃ n w, a.complete 14 34 filled = .ok n w := by
    unfold Addressing.complete
    simp only [Action.bind_apply, Action.get_apply, Writer.patch, Action.modify_apply]
    cases a.withChecksum with
    | true => exact ⟨_, _, rfl⟩
    | false => exact ⟨_, _, rfl⟩
  refine ⟨n, ?_⟩
  unfold Addressing.write Action.result
  simp only [Action.bind_apply, hput, hip, hudp, hbehind, hlast, hfilled, hdone]

theorem sendDatagram_of_reserve {fill : Action GuardError Writer Unit}
    (hfill : FillSucceeds room fill) {d : Descriptor} {e₁ : OnMemory}
    (h : reserve (frameOverhead + room) e = .ok (some d) e₁)
    (hreserves : Reserves e e₁ (frameOverhead + room) (some d))
    (hmax : frameOverhead + room ≤ bufferSize) :
    ∃ e', (sendDatagram room fill : Action FrameError OnMemory Bool) e = .ok true e' := by
  have haccounts : e₁.link.pool.Accounts [d.slot] := hreserves.accounts
  have hd : d.length = 42 + room := hreserves.length_eq d rfl
  let e₂ : OnMemory := { e₁ with identification := e₁.identification + 1 }
  have hbuffer : (Transport.content e₂.link d).length = 42 + room := by
    have hfits : 42 + room ≤ bufferSize := hmax
    show ((e₁.link.pool.buffer d.slot).take d.length).length = 42 + room
    rw [List.length_take, haccounts.length_buffer, hd, Nat.min_eq_left hfits]
  obtain ⟨n, hwritten⟩ := write_of_fillSucceeds e₂.addressing hfill hbuffer
  unfold sendDatagram
  rw [Action.bind_apply, Action.mapError, h]
  simp only [Action.bind_apply, Action.modify_apply, Action.get_apply]
  rw [hwritten]
  exact ⟨_, rfl⟩

/-! ## Nothing is dropped on a link that flows -/

section Flowing

open RomCast.Action (Keeps)

variable {n : Nat}

/-- So many frames have been dropped. -/
def HasDropped (n : Nat) (e : OnMemory) : Prop := e.counters.txDropped = n

theorem send_keepsDropped (h : e.link.pool.Accounts []) (hflows : e.link.Flows) (frame : Bytes) :
    HasDropped e.counters.txDropped
      ((send frame : Action FrameError OnMemory Bool).state e) :=
  (send_ends frame e).txDropped_eq (send_ne_dropped (reserve_ne_none h hflows))

theorem sendDatagram_keepsDropped (h : e.link.pool.Accounts []) (hflows : e.link.Flows)
    (room : Nat) (fill : Action GuardError Writer Unit) :
    HasDropped e.counters.txDropped
      ((sendDatagram room fill : Action FrameError OnMemory Bool).state e) := by
  obtain ⟨n, hends⟩ := (sendDatagram_ends room fill e).sendEnds
  exact hends.txDropped_eq (sendDatagram_ne_dropped (reserve_ne_none h hflows))

theorem sendRequest_keepsDropped (h : e.link.pool.Accounts []) (hflows : e.link.Flows)
    (now : Nat) :
    HasDropped e.counters.txDropped
      ((sendRequest now : Action FrameError OnMemory Unit).state e) := by
  unfold sendRequest
  rw [Action.state_bind_of_ok (Action.get_apply e)]
  cases e.resolver.target with
  | none => rfl
  | some target =>
    refine Keeps.state_bind (send_keepsDropped h hflows _) fun sent => Keeps.ite ?_ ?_
    · exact Keeps.bind (Action.keeps_modify fun _ he => he) fun _ =>
        Action.keeps_modify fun _ he => he
    · exact Action.keeps_pure _ ()

theorem transmit_keepsDropped (h : e.link.pool.Accounts []) (hflows : e.link.Flows)
    (now room : Nat) (fill : Action GuardError Writer Unit) :
    HasDropped e.counters.txDropped
      ((transmit now room fill : Action FrameError OnMemory Bool).state e) := by
  obtain ⟨e₁, questions, hasked, hemits, -⟩ := askFirst_emits now e h
  have hdropped : HasDropped e.counters.txDropped e₁ := by
    rw [← Action.state_of_ok hasked]
    unfold askFirst
    rw [Action.state_bind_of_ok (Action.get_apply e)]
    cases e.resolver.needsRequest with
    | true => exact sendRequest_keepsDropped h hflows now
    | false => rfl
  rw [transmit, Action.state_bind_of_ok hasked, ← hdropped]
  exact sendDatagram_keepsDropped hemits.accounts (hflows.congr hemits.queued) room fill

theorem pollTimers_keepsDropped (h : e.link.pool.Accounts []) (hflows : e.link.Flows)
    (now : Nat) :
    HasDropped e.counters.txDropped
      ((pollTimers now : Action FrameError OnMemory Unit).state e) := by
  unfold pollTimers
  simp only [Action.state, Action.bind_apply, Action.get_apply, Action.modify_apply,
    Action.ite_apply]
  by_cases hresend : (e.resolver.poll now).1 = .resend
  · rw [if_pos hresend]
    exact sendRequest_keepsDropped (e := { e with resolver := (e.resolver.poll now).2 }) h hflows
      now
  · rw [if_neg hresend]
    rfl

theorem handle_keepsDropped (h : e.link.pool.Accounts []) (hflows : e.link.Flows)
    (frame : Bytes) :
    HasDropped e.counters.txDropped
      ((handle : Action FrameError (OnMemory × Bytes) _).state (e, frame)).1 := by
  have hindifferent : Indifferent (HasDropped e.counters.txDropped) :=
    ⟨fun _ _ he => he, fun _ _ he => he⟩
  let counted : OnMemory := { e with counters.rxFrames := e.counters.rxFrames + 1 }
  obtain ⟨delivered, dropped, hstate⟩ := state_handle e frame
  rw [hstate]
  exact hindifferent.dispatch (e := counted) rfl (send_keepsDropped (e := counted) h hflows) frame

/-- Whatever is done on a link that flows, nothing is dropped. -/
theorem Operation.apply_keepsDropped (o : Operation) (h : e.link.pool.Accounts [])
    (hflows : e.link.Flows) : HasDropped e.counters.txDropped (o.apply e) := by
  cases o with
  | transmit now room fill => exact transmit_keepsDropped h hflows now room fill
  | send frame => exact send_keepsDropped h hflows frame
  | flush => exact rfl
  | pollTimers now => exact pollTimers_keepsDropped h hflows now
  | handle frame => exact handle_keepsDropped h hflows frame
  | receive buffer => rfl

end Flowing

/-! ## What goes out stays out, and what is queued stays queued -/

/-- No operation changes how the link is set, takes back a frame that went out, or loses one that
was queued. -/
theorem Operation.apply_onward (o : Operation) (h : e.link.pool.Accounts []) :
    (o.apply e).link.batch = e.link.batch ∧ e.link.outbound <+: (o.apply e).link.outbound ∧
      e.link.pipeline <+: (o.apply e).link.pipeline := by
  have hcustody : Recorded.Custody
      (MemoryLink.onward e.link.batch e.link.outbound e.link.pipeline)
      e.link.pool.buffers.length none e.counters.txFrames e.link { link := e.link } :=
    ⟨rfl, h, rfl, by simp, rfl, List.prefix_rfl, List.prefix_rfl⟩
  have hpaired : Paired (Recorded.custody
      (MemoryLink.onward e.link.batch e.link.outbound e.link.pipeline)
      e.link.pool.buffers.length) none e (e.withLink { link := e.link }) := ⟨_, rfl, hcustody⟩
  obtain ⟨r, -, hr⟩ := o.apply_paired hpaired
  exact hr.tally

/-- A flush sends a waiting frame, if there is one, on a link that flows. -/
theorem length_outbound_flush (h : e.link.pool.Accounts []) (hflows : e.link.Flows) :
    min (e.link.outbound.length + 1) e.link.pipeline.length ≤
      (Operation.flush.apply e).link.outbound.length := by
  have hpipeline := congrArg List.length (pipeline_flushed h)
  have hwaiting := congrArg List.length (submitted_flushed e)
  simp only [MemoryLink.pipeline, List.length_append, TransmitPool.waiting, List.length_map,
    List.length_drop] at hpipeline hwaiting
  show _ ≤ e.flushed.link.outbound.length
  simp only [MemoryLink.pipeline, List.length_append, TransmitPool.waiting, List.length_map]
  by_cases hnone : e.link.pool.submitted = []
  · rw [hnone, List.length_nil] at hpipeline hwaiting
    rw [hnone, List.length_nil]
    omega
  · have hquota := hflows.quota_pos hnone
    have hsome := List.length_pos_iff.mpr hnone
    omega

namespace Tapped

variable {queue : Nat} {t : Tapped MemoryLink}

/-- Everything that has gone out so far. -/
def sent (t : Tapped MemoryLink) : List Bytes := t.taken ++ t.endpoint.link.outbound

/-- Everything that has been submitted so far. -/
def submitted (t : Tapped MemoryLink) : List Bytes := t.taken ++ t.endpoint.link.pipeline

theorem sent_prefix_submitted (t : Tapped MemoryLink) : t.sent <+: t.submitted :=
  (List.prefix_append_right_inj _).mpr (List.prefix_append _ _)

theorem length_submitted (t : Tapped MemoryLink) :
    t.submitted.length = t.sent.length + t.endpoint.link.pool.waiting.length := by
  rw [submitted, MemoryLink.pipeline, ← List.append_assoc, List.length_append]
  rfl

/-- Between two incidents, on a link with this many buffers. -/
structure Whole (queue : Nat) (t : Tapped MemoryLink) : Prop where
  accounts : t.endpoint.link.pool.Accounts []
  buffers : t.endpoint.link.pool.buffers.length = queue

theorem whole_new (mac : Mac) (queue : Nat) (batch : Option Nat) (config : Config) :
    Whole queue ⟨new { MemoryLink.ofQueue mac queue with batch } config, []⟩ :=
  ⟨TransmitPool.ofCount_accounts queue, List.length_replicate⟩

theorem Whole.step (h : Whole queue t) (incident : Incident) :
    Whole queue (Tapped.step t incident) := by
  cases incident with
  | operation o =>
    obtain ⟨haccounts, hbuffers⟩ := o.apply_accounts (e := t.endpoint) h.accounts
    exact ⟨haccounts, hbuffers.trans h.buffers⟩
  | batch n => exact ⟨h.accounts, h.buffers⟩
  | take n => exact ⟨h.accounts, h.buffers⟩
  | deliver frame => exact ⟨h.accounts, h.buffers⟩

theorem Whole.run (h : Whole queue t) (incidents : List Incident) :
    Whole queue (incidents.foldl Tapped.step t) := by
  induction incidents generalizing t with
  | nil => exact h
  | cons incident rest ih => exact ih (h.step incident)

/-- What happens on the wire moves frames along it at most. -/
theorem sent_onWire (t : Tapped MemoryLink) (incident : Incident) :
    let link := (incident.onWire t.endpoint.link).2
    let t' : Tapped MemoryLink :=
      ⟨{ t.endpoint with link }, t.taken ++ (incident.onWire t.endpoint.link).1⟩
    t'.sent = t.sent ∧ t'.submitted = t.submitted := by
  intro link t'
  have hoff : (incident.onWire t.endpoint.link).1 ++ link.outbound =
      t.endpoint.link.outbound := by
    cases incident with
    | operation o => rfl
    | batch n => rfl
    | take n => exact List.take_append_drop n _
    | deliver frame => rfl
  refine ⟨?_, ?_⟩
  · show t.taken ++ (incident.onWire t.endpoint.link).1 ++ link.outbound = t.sent
    rw [List.append_assoc, hoff]
    rfl
  · show t.taken ++ (incident.onWire t.endpoint.link).1 ++ link.pipeline = t.submitted
    rw [List.append_assoc, (incident.onWire_pipeline t.endpoint.link).1]
    rfl

/-- An incident takes back nothing that went out, and loses nothing that was submitted. -/
theorem Whole.step_onward (h : Whole queue t) (incident : Incident) :
    t.sent <+: (Tapped.step t incident).sent ∧
      t.submitted <+: (Tapped.step t incident).submitted := by
  have hwire (incident : Incident) := sent_onWire t incident
  cases incident with
  | operation o =>
    obtain ⟨-, hsent, hsubmitted⟩ := o.apply_onward h.accounts
    exact ⟨(List.prefix_append_right_inj _).mpr hsent,
      (List.prefix_append_right_inj _).mpr hsubmitted⟩
  | batch n =>
    exact ⟨(hwire (.batch n)).1 ▸ List.prefix_rfl, (hwire (.batch n)).2 ▸ List.prefix_rfl⟩
  | take n =>
    exact ⟨(hwire (.take n)).1 ▸ List.prefix_rfl, (hwire (.take n)).2 ▸ List.prefix_rfl⟩
  | deliver frame =>
    exact ⟨(hwire (.deliver frame)).1 ▸ List.prefix_rfl,
      (hwire (.deliver frame)).2 ▸ List.prefix_rfl⟩

/-! ## Runs on links that flow -/

theorem Whole.flows (h : Whole queue t) (hqueue : 0 < queue)
    (hbatch : t.endpoint.link.batch ≠ some 0) : t.endpoint.link.Flows :=
  ⟨h.buffers ▸ hqueue, hbatch⟩

/-- Only setting the link anew changes how it is set. -/
theorem Whole.step_batch (h : Whole queue t) {incident : Incident}
    (hincident : incident ≠ .batch (some 0)) (hbatch : t.endpoint.link.batch ≠ some 0) :
    (Tapped.step t incident).endpoint.link.batch ≠ some 0 := by
  cases incident with
  | operation o =>
    intro hzero
    exact hbatch ((o.apply_onward h.accounts).1.symm.trans hzero)
  | batch n =>
    intro hzero
    exact hincident (congrArg Incident.batch hzero)
  | take n => exact hbatch
  | deliver frame => exact hbatch

theorem Whole.run_batch (h : Whole queue t) {incidents : List Incident}
    (hincidents : ∀ incident ∈ incidents, incident ≠ .batch (some 0))
    (hbatch : t.endpoint.link.batch ≠ some 0) :
    (incidents.foldl Tapped.step t).endpoint.link.batch ≠ some 0 := by
  induction incidents generalizing t with
  | nil => exact hbatch
  | cons incident rest ih =>
    obtain ⟨hfirst, hrest⟩ := List.forall_mem_cons.mp hincidents
    exact ih (h.step incident) hrest (h.step_batch hfirst hbatch)

theorem Whole.step_keepsDropped (h : Whole queue t) (hqueue : 0 < queue)
    (hbatch : t.endpoint.link.batch ≠ some 0) (incident : Incident) :
    HasDropped t.endpoint.counters.txDropped (Tapped.step t incident).endpoint := by
  cases incident with
  | operation o => exact o.apply_keepsDropped h.accounts (h.flows hqueue hbatch)
  | batch n => rfl
  | take n => rfl
  | deliver frame => rfl

/-- On a link that always flows, nothing is ever dropped. -/
theorem Whole.run_keepsDropped (h : Whole queue t) (hqueue : 0 < queue)
    {incidents : List Incident}
    (hincidents : ∀ incident ∈ incidents, incident ≠ .batch (some 0))
    (hbatch : t.endpoint.link.batch ≠ some 0) :
    HasDropped t.endpoint.counters.txDropped (incidents.foldl Tapped.step t).endpoint := by
  induction incidents generalizing t with
  | nil => rfl
  | cons incident rest ih =>
    obtain ⟨hfirst, hrest⟩ := List.forall_mem_cons.mp hincidents
    have hstep : HasDropped _ _ := h.step_keepsDropped hqueue hbatch incident
    rw [List.foldl_cons, ← hstep]
    exact ih (h.step incident) hrest (h.step_batch hfirst hbatch)

/-- How often the link is asked to send. -/
def flushes : List Incident → Nat
  | [] => 0
  | .operation .flush :: rest => flushes rest + 1
  | _ :: rest => flushes rest

/-- With every flush a frame goes out, until all have that were submitted. -/
theorem Whole.run_sent (h : Whole queue t) (hqueue : 0 < queue) {incidents : List Incident}
    (hincidents : ∀ incident ∈ incidents, incident ≠ .batch (some 0))
    (hbatch : t.endpoint.link.batch ≠ some 0) :
    t.submitted <+: (incidents.foldl Tapped.step t).submitted ∧
      min (t.sent.length + flushes incidents) t.submitted.length ≤
        (incidents.foldl Tapped.step t).sent.length := by
  induction incidents generalizing t with
  | nil => exact ⟨List.prefix_rfl, Nat.min_le_left _ _⟩
  | cons incident rest ih =>
    obtain ⟨hfirst, hrest⟩ := List.forall_mem_cons.mp hincidents
    obtain ⟨hsent, hsubmitted⟩ := h.step_onward incident
    obtain ⟨hlast, hmany⟩ := ih (h.step incident) hrest (h.step_batch hfirst hbatch)
    refine ⟨hsubmitted.trans hlast, Nat.le_trans ?_ hmany⟩
    have hlonger := hsent.length_le
    have hmore := hsubmitted.length_le
    by_cases hflush : incident = .operation .flush
    · subst hflush
      have hone := length_outbound_flush h.accounts (h.flows hqueue hbatch)
      have hstep : (Tapped.step t (.operation .flush)).sent.length =
          t.taken.length + (Operation.flush.apply t.endpoint).link.outbound.length :=
        List.length_append
      have hcount : flushes (.operation .flush :: rest) = flushes rest + 1 := rfl
      have hbefore : t.sent.length = t.taken.length + t.endpoint.link.outbound.length :=
        List.length_append
      have hall : t.submitted.length = t.taken.length + t.endpoint.link.pipeline.length :=
        List.length_append
      omega
    · have hcount : flushes (incident :: rest) = flushes rest := by
        cases incident with
        | operation o =>
          cases o with
          | flush => exact absurd rfl hflush
          | transmit now room fill => rfl
          | send frame => rfl
          | pollTimers now => rfl
          | handle frame => rfl
          | receive buffer => rfl
        | batch n => rfl
        | take n => rfl
        | deliver frame => rfl
      omega

end Tapped

/-! ## Links that flow, and links that stand still -/

/-- Every frame that fits a buffer is taken. -/
structure TakesAll (e : OnMemory) : Prop where
  send : ∀ frame : Bytes, frame.length ≤ bufferSize →
    ∃ e', (send frame : Action FrameError OnMemory Bool) e = .ok true e'
  /-- A datagram is not dropped, even when its payload cannot be written. -/
  transmit_ne_dropped : ∀ (now room : Nat) (fill : Action GuardError Writer Unit) (e' : OnMemory),
    (transmit now room fill : Action FrameError OnMemory Bool) e ≠ .ok false e'
  transmit : ∀ (now room : Nat) (fill : Action GuardError Writer Unit),
    frameOverhead + room ≤ bufferSize → FillSucceeds room fill →
    ∃ e', (transmit now room fill : Action FrameError OnMemory Bool) e = .ok true e'

/-- Every frame is refused, and the refusal is counted; nothing else happens. -/
structure RefusesAll (e : OnMemory) : Prop where
  send : ∀ frame : Bytes, frame.length ≤ bufferSize →
    (send frame : Action FrameError OnMemory Bool) e = .ok false e.dropped
  /-- A question for the peer's address would be refused as well, and counted. -/
  transmit : e.resolver.needsRequest = false → ∀ (now room : Nat)
    (fill : Action GuardError Writer Unit), frameOverhead + room ≤ bufferSize →
    (transmit now room fill : Action FrameError OnMemory Bool) e = .ok false e.dropped

theorem transmit_of_not_needsRequest (h : e.resolver.needsRequest = false) (now room : Nat)
    (fill : Action GuardError Writer Unit) :
    (transmit now room fill : Action FrameError OnMemory Bool) e = sendDatagram room fill e := by
  have hasked : (askFirst now : Action FrameError OnMemory Unit) e = .ok () e := by
    simp only [askFirst, Action.bind_apply, Action.get_apply, h, Action.ite_apply]
    rfl
  rw [transmit, Action.bind_apply, hasked]

theorem sendDatagram_of_not_spent {fill : Action GuardError Writer Unit}
    (h : e.link.pool.Accounts []) (havailable : ¬ e.link.Spent)
    (hmax : frameOverhead + room ≤ bufferSize) (hfill : FillSucceeds room fill) :
    ∃ e', (sendDatagram room fill : Action FrameError OnMemory Bool) e = .ok true e' := by
  obtain ⟨d, e₁, hreserve, hreserves⟩ := reserve_of_not_spent hmax h havailable
  exact sendDatagram_of_reserve hfill hreserve hreserves hmax

theorem send_of_not_spent (h : e.link.pool.Accounts []) (havailable : ¬ e.link.Spent)
    (hlength : frame.length ≤ bufferSize) :
    ∃ e', (send frame : Action FrameError OnMemory Bool) e = .ok true e' := by
  obtain ⟨d, e₁, hreserve, -⟩ := reserve_of_not_spent hlength h havailable
  exact send_of_reserve hreserve

theorem takesAll_of_flows (h : e.link.pool.Accounts []) (hflows : e.link.Flows) : TakesAll e := by
  refine ⟨?_, ?_, ?_⟩
  · intro frame hlength
    obtain ⟨d, e₁, hreserve, -⟩ := reserve_of_flows hlength h hflows
    exact send_of_reserve hreserve
  · intro now room fill e'
    obtain ⟨e₁, questions, hasked, hemits, -⟩ := askFirst_emits now e h
    rw [transmit, Action.bind_apply, hasked]
    exact sendDatagram_ne_dropped
      (reserve_ne_none hemits.accounts (hflows.congr hemits.queued)) e'
  · intro now room fill hmax hfill
    obtain ⟨e₁, questions, hasked, hemits, -⟩ := askFirst_emits now e h
    rw [transmit, Action.bind_apply, hasked]
    obtain ⟨d, e₂, hreserve, hreserves⟩ :=
      reserve_of_flows hmax hemits.accounts (hflows.congr hemits.queued)
    exact sendDatagram_of_reserve hfill hreserve hreserves hmax

theorem refusesAll_of_stalled (hbatch : e.link.batch = some 0) (hspent : e.link.Spent) :
    RefusesAll e := by
  refine ⟨?_, ?_⟩
  · intro frame hlength
    simp only [send, Action.bind_apply, Action.mapError,
      reserve_of_stalled hlength hbatch hspent]
    rfl
  · intro hneeds now room fill hmax
    rw [transmit_of_not_needsRequest hneeds]
    simp only [sendDatagram, Action.bind_apply, Action.mapError,
      reserve_of_stalled hmax hbatch hspent]
    rfl

/-- Whatever has happened at an endpoint on a link in memory:

* with a buffer, and while the link sends at least one frame when it is asked to, every frame is
  taken, and whatever is done nothing is counted as dropped; if the link has always done so, nothing
  ever was;
* while the link stands still, frames are refused exactly when no buffer is free and none can be
  collected, and a refusal leaves only its count behind;
* when the link is set to move on, frames are taken from then on, and as soon as it has been asked
  to send as often as frames waited, everything that had been submitted has gone out. -/
theorem backpressure (mac : Mac) (queue : Nat) (batch : Option Nat) (config : Config)
    (incidents : List Incident) :
    let start : OnMemory := new { MemoryLink.ofQueue mac queue with batch } config
    let t : Tapped MemoryLink := incidents.foldl Tapped.step ⟨start, []⟩
    (0 < queue → t.endpoint.link.batch ≠ some 0 →
      TakesAll t.endpoint ∧
        ∀ o : Operation, HasDropped t.endpoint.counters.txDropped (o.apply t.endpoint)) ∧
    (0 < queue → batch ≠ some 0 → (∀ incident ∈ incidents, incident ≠ .batch (some 0)) →
      HasDropped 0 t.endpoint) ∧
    (t.endpoint.link.batch = some 0 →
      (t.endpoint.link.Spent → RefusesAll t.endpoint) ∧
      (¬ t.endpoint.link.Spent →
        (∀ frame : Bytes, frame.length ≤ bufferSize →
          ∃ e', (send frame : Action FrameError OnMemory Bool) t.endpoint = .ok true e') ∧
        (t.endpoint.resolver.needsRequest = false → ∀ (now room : Nat)
          (fill : Action GuardError Writer Unit), frameOverhead + room ≤ bufferSize →
          FillSucceeds room fill →
          ∃ e', (transmit now room fill : Action FrameError OnMemory Bool) t.endpoint =
            .ok true e'))) ∧
    (0 < queue → ∀ (raised : Option Nat) (later : List Incident), raised ≠ some 0 →
      (∀ incident ∈ later, incident ≠ .batch (some 0)) →
      let t' := later.foldl Tapped.step (t.step (.batch raised))
      TakesAll t'.endpoint ∧
        (t.endpoint.link.pool.waiting.length ≤ Tapped.flushes later →
          t.submitted <+: t'.sent)) := by
  intro start t
  have hwhole : t.Whole queue := (Tapped.whole_new mac queue batch config).run incidents
  refine ⟨?_, ?_, ?_, ?_⟩
  · intro hqueue hbatch
    have hflows := hwhole.flows hqueue hbatch
    exact ⟨takesAll_of_flows hwhole.accounts hflows,
      fun o => o.apply_keepsDropped hwhole.accounts hflows⟩
  · intro hqueue hbatch hincidents
    exact (Tapped.whole_new mac queue batch config).run_keepsDropped hqueue hincidents hbatch
  · intro hbatch
    refine ⟨refusesAll_of_stalled hbatch, fun havailable => ⟨?_, ?_⟩⟩
    · intro frame hlength
      exact send_of_not_spent hwhole.accounts havailable hlength
    · intro hneeds now room fill hmax hfill
      rw [transmit_of_not_needsRequest hneeds]
      exact sendDatagram_of_not_spent hwhole.accounts havailable hmax hfill
  · intro hqueue raised later hraised hlater t'
    have hraise : (t.step (.batch raised)).Whole queue := hwhole.step (.batch raised)
    have hmoves : (t.step (.batch raised)).endpoint.link.batch ≠ some 0 := hraised
    have hwhole' : t'.Whole queue := hraise.run later
    have hflows' := hwhole'.flows hqueue (hraise.run_batch hlater hmoves)
    refine ⟨takesAll_of_flows hwhole'.accounts hflows', fun henough => ?_⟩
    obtain ⟨hkept, hsent⟩ := hraise.run_sent hqueue hlater hmoves
    have hprefix : t'.sent <+: t'.submitted := t'.sent_prefix_submitted
    have hsame : (t.step (.batch raised)).submitted = t.submitted :=
      (Tapped.sent_onWire t (.batch raised)).2
    have hbefore : (t.step (.batch raised)).sent = t.sent :=
      (Tapped.sent_onWire t (.batch raised)).1
    rw [hsame, hbefore] at hsent
    rw [hsame] at hkept
    refine List.prefix_of_prefix_length_le hkept hprefix (Nat.le_trans ?_ hsent)
    rw [t.length_submitted]
    omega

/-- On a link with one buffer the second frame is refused while the link stands still, and the first
goes out when it moves on. -/
theorem second_frame_refused_until_raised :
    let start : OnMemory := new { MemoryLink.ofQueue Mac.zero 1 with batch := some 0 } {}
    let t : Tapped MemoryLink := [Incident.operation (.send [7])].foldl Tapped.step ⟨start, []⟩
    let t' := [Incident.operation .flush].foldl Tapped.step (t.step (.batch (some 1)))
    (send [8] : Action FrameError OnMemory Bool) t.endpoint = .ok false t.endpoint.dropped ∧
      [[7]] <+: t'.sent ∧ TakesAll t'.endpoint := by
  intro start t t'
  obtain ⟨-, -, hstalled, hraised⟩ := backpressure Mac.zero 1 (some 0) {}
    [.operation (.send [7])]
  have hspent : t.endpoint.link.Spent := ⟨by rfl, by rfl⟩
  have hrefuses : RefusesAll t.endpoint := (hstalled (by rfl)).1 hspent
  obtain ⟨htakes, hsent⟩ := hraised (by decide) (some 1) [.operation .flush] (by simp) (by simp)
  have hwaits : t.endpoint.link.pool.waiting.length ≤ 1 := Nat.le_refl 1
  have hsubmitted : t.submitted = [[7]] := by
    unfold t start
    decide +kernel
  exact ⟨hrefuses.send [8] (by decide), hsubmitted ▸ hsent hwaits, htakes⟩

end Endpoint

end RomCast
