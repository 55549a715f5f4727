import Mathlib.Algebra.GroupWithZero.Nat
import RomCast.Proofs.Endpoint.Datagram
import RomCast.Proofs.Link.Memory

set_option autoImplicit false

/-!
# What an endpoint sends

Everything that an endpoint on a link in memory does puts frames behind those in its pipeline, and
takes nothing away (`Emits`).  The frames are ARP packets and datagrams.  A frame is dropped only
when no buffer can be had, which does not happen on a link that flows.
-/

namespace RomCast

/-- A frame with an ARP packet of this opcode. -/
structure ArpFrame (opcode : UInt16) (frame : Bytes) : Prop where
  length_eq : frame.length = 42
  etherType_eq : frame.word16 12 = etherTypeArp
  opcode_eq : frame.word16 20 = opcode

/-- The largest payload of a datagram that fits a buffer. -/
def maxDatagram : Nat := 1558

/-- A frame that an endpoint has sent. -/
inductive Outgoing where
  | arp (opcode : UInt16) (bytes : Bytes) (valid : ArpFrame opcode bytes)
  | datagram (a : Endpoint.Addressing) (content : Bytes) (fits : content.length ≤ maxDatagram)

namespace Outgoing

/-- The bytes on the wire. -/
def frame : Outgoing → Bytes
  | arp _ bytes _ => bytes
  | datagram a content _ => a.frame content

/-- What a datagram carries. -/
def payload? : Outgoing → Option Bytes
  | arp _ _ _ => none
  | datagram _ content _ => some content

/-- The frame is addressed as this configuration says. -/
def From (config : Endpoint.Config) : Outgoing → Prop
  | arp _ _ _ => True
  | datagram a _ _ =>
      a.source = config.source.getD Ipv4Address.unspecified ∧
        a.target = config.target.getD Ipv4Address.broadcast ∧ a.port = config.port

theorem length_frame_le (o : Outgoing) : o.frame.length ≤ bufferSize := by
  cases o with
  | arp opcode bytes valid =>
    show bytes.length ≤ 1600
    rw [valid.length_eq]
    omega
  | datagram a content fits =>
    have hfits : content.length ≤ 1558 := fits
    show (a.frame content).length ≤ 1600
    rw [Endpoint.Addressing.length_frame]
    omega

/-- What the datagrams among frames carry. -/
def payloads (out : List Outgoing) : List Bytes := out.filterMap payload?

@[simp] theorem payloads_nil : payloads [] = [] := rfl

@[simp] theorem payloads_append (out out' : List Outgoing) :
    payloads (out ++ out') = payloads out ++ payloads out' :=
  List.filterMap_append ..

/-- Nothing, or one question for the peer's address. -/
def AtMostQuestion (out : List Outgoing) : Prop :=
  out = [] ∨ ∃ bytes valid, out = [arp ArpPacket.opRequest bytes valid]

theorem AtMostQuestion.payloads_eq {out : List Outgoing} (h : AtMostQuestion out) :
    payloads out = [] := by
  rcases h with hnil | ⟨bytes, valid, hone⟩
  · rw [hnil]
    rfl
  · rw [hone]
    rfl

/-- How much ARP traffic a frame may still give rise to, itself included: a question may be
answered. -/
def chatter : Outgoing → Nat
  | arp opcode _ _ => if opcode = ArpPacket.opRequest then 2 else 1
  | datagram _ _ _ => 0

/-- How much ARP traffic frames may still give rise to. -/
def totalChatter (out : List Outgoing) : Nat := (out.map chatter).sum

@[simp] theorem totalChatter_nil : totalChatter [] = 0 := rfl

@[simp] theorem totalChatter_cons (o : Outgoing) (out : List Outgoing) :
    totalChatter (o :: out) = o.chatter + totalChatter out := rfl

@[simp] theorem totalChatter_append (out out' : List Outgoing) :
    totalChatter (out ++ out') = totalChatter out + totalChatter out' := by
  rw [totalChatter, List.map_append, List.sum_append]
  rfl

theorem AtMostQuestion.totalChatter_le {out : List Outgoing} (h : AtMostQuestion out) :
    totalChatter out ≤ 2 := by
  rcases h with hnil | ⟨bytes, valid, hone⟩
  · rw [hnil]
    exact Nat.zero_le 2
  · rw [hone]
    exact Nat.le_refl 2

end Outgoing

namespace Endpoint

/-- An endpoint on a link in memory. -/
abbrev OnMemory : Type := Endpoint MemoryLink

/-- An endpoint after it has sent these frames. -/
structure Emits (e e' : OnMemory) (out : List Outgoing) : Prop where
  queued : e.link.Queued e'.link (out.map Outgoing.frame)
  accounts : e'.link.pool.Accounts []
  config : e'.config = e.config
  addressed : ∀ o ∈ out, o.From e.config

theorem emits_refl {e : OnMemory} (h : e.link.pool.Accounts []) : Emits e e [] :=
  ⟨e.link.queued_refl, h, rfl, by simp⟩

theorem Emits.trans {e e' e'' : OnMemory} {out out' : List Outgoing} (h : Emits e e' out)
    (h' : Emits e' e'' out') : Emits e e'' (out ++ out') := by
  constructor
  · rw [List.map_append]
    exact h.queued.trans h'.queued
  · exact h'.accounts
  · rw [h'.config, h.config]
  · intro o ho
    rcases List.mem_append.mp ho with hfirst | hsecond
    · exact h.addressed o hfirst
    · rw [← h.config]
      exact h'.addressed o hsecond

/-- What does not concern the link or the configuration sends nothing. -/
theorem Emits.congr {e e' e'' : OnMemory} {out : List Outgoing} (h : Emits e e' out)
    (hlink : e''.link = e'.link) (hconfig : e''.config = e'.config) : Emits e e'' out := by
  constructor
  · rw [hlink]
    exact h.queued
  · rw [hlink]
    exact h.accounts
  · rw [hconfig, h.config]
  · exact h.addressed

/-! ## Flushing -/

/-- The endpoint after a flush. -/
def flushed (e : OnMemory) : OnMemory :=
  { e with link := Transport.drainAcks (e.link.sendFronts e.link.quota) }

theorem flushed_emits {e : OnMemory} (h : e.link.pool.Accounts []) : Emits e e.flushed [] := by
  have hsent := MemoryLink.sendFronts_queued e.link.quota e.link
  have hdrained := MemoryLink.drainAcks_queued (e.link.sendFronts e.link.quota)
  refine ⟨hsent.trans hdrained, ?_, rfl, by simp⟩
  show (Transport.drainAcks (e.link.sendFronts e.link.quota)).pool.Accounts []
  rw [MemoryLink.drainAcks_eq]
  exact TransmitPool.collected_accounts (MemoryLink.sendFronts_accounts _ h)

/-- A flush after something was sent sends nothing else. -/
theorem Emits.flush {e e' : OnMemory} {out : List Outgoing} (h : Emits e e' out) :
    Emits e e'.flushed out := by
  have hflushed := h.trans (flushed_emits h.accounts)
  rwa [List.append_nil] at hflushed

/-- A flush leaves in the pipeline what was in it. -/
theorem pipeline_flushed {e : OnMemory} (h : e.link.pool.Accounts []) :
    e.flushed.link.pipeline = e.link.pipeline := by
  rw [(flushed_emits h).queued.pipeline, List.map_nil, List.append_nil]

theorem submitted_flushed (e : OnMemory) :
    e.flushed.link.pool.submitted = e.link.pool.submitted.drop e.link.quota := by
  have hdrained : e.flushed.link.pool.submitted =
      (e.link.sendFronts e.link.quota).pool.submitted := by
    show (Transport.drainAcks (e.link.sendFronts e.link.quota)).pool.submitted = _
    rw [MemoryLink.drainAcks_eq]
    rfl
  rw [hdrained, MemoryLink.submitted_sendFronts]

/-- On a link that flows, a flush leaves a free buffer. -/
theorem free_flushed_ne_nil {e : OnMemory} (h : e.link.pool.Accounts []) (hflows : e.link.Flows) :
    e.flushed.link.pool.free ≠ [] := by
  intro hfree
  have hemits := flushed_emits h
  have hacked : e.flushed.link.pool.acked = [] := by
    show (Transport.drainAcks (e.link.sendFronts e.link.quota)).pool.acked = []
    rw [MemoryLink.drainAcks_eq]
    rfl
  have hbuffers := hemits.queued.buffers
  have hafter := hemits.accounts.slots.length_eq
  have hbefore := h.slots.length_eq
  simp only [TransmitPool.slots, List.nil_append, List.length_append, List.length_map,
    List.length_range, hfree, hacked, List.length_nil, submitted_flushed,
    List.length_drop] at hafter
  simp only [TransmitPool.slots, List.nil_append, List.length_append, List.length_map,
    List.length_range] at hbefore
  have hpos := hflows.buffers
  have hsome : e.link.pool.submitted ≠ [] := by
    intro hnil
    rw [hnil, List.length_nil] at hafter
    omega
  have hquota := hflows.quota_pos hsome
  have hlength := List.length_pos_iff.mpr hsome
  omega

/-! ## Reserving a buffer -/

/-- An endpoint after it has tried to get a buffer of some length. -/
structure Reserves (e e' : OnMemory) (length : Nat) (d? : Option Descriptor) : Prop where
  queued : e.link.Queued e'.link []
  config : e'.config = e.config
  resolver : e'.resolver = e.resolver
  accounts : e'.link.pool.Accounts (d?.map Descriptor.slot).toList
  length_eq : ∀ d, d? = some d → d.length = length

theorem reserveTries_reserves (length : Nat) (hlength : length ≤ bufferSize) (tries : Nat)
    (e : OnMemory) (h : e.link.pool.Accounts []) :
    ∃ d? e', reserveTries length tries e = .ok d? e' ∧ Reserves e e' length d? ∧
      (e.link.Flows → 2 ≤ tries ∨ (1 ≤ tries ∧ e.link.pool.free ≠ []) → d? ≠ none) := by
  induction tries generalizing e with
  | zero =>
    refine ⟨none, { e with counters := { e.counters with
      txDropped := e.counters.txDropped + 1 } }, rfl, ?_, ?_⟩
    · exact ⟨e.link.queued_refl, rfl, rfl, h, fun d hd => nomatch hd⟩
    · intro _ htries
      omega
  | succ tries ih =>
    rcases TransmitPool.alloc_accounts h hlength with
      ⟨hfree, halloc⟩ | ⟨slot, rest, hfree, halloc, haccounts⟩
    · -- No buffer is free: what waits is sent, and the next try is made.
      obtain ⟨d?, e', htry, hreserves, hsome⟩ := ih e.flushed (flushed_emits h).accounts
      have hflushed := (flushed_emits h).queued
      refine ⟨d?, e', ?_, ?_, ?_⟩
      · rw [← htry]
        have hattempt : (onLink (Transport.alloc length)).attempt e =
            (.ok (.error LinkError.exhausted) e :
              EStateM.Result LinkError OnMemory (Except LinkError Descriptor)) := by
          simp only [Action.attempt, onLink, Action.on, Transport.alloc]
          rw [halloc]
        rw [reserveTries, Action.bind_apply, hattempt]
        rfl
      · exact ⟨hflushed.trans hreserves.queued, hreserves.config, hreserves.resolver,
          hreserves.accounts, hreserves.length_eq⟩
      · intro hflows htries
        have hnext : 2 ≤ tries ∨ (1 ≤ tries ∧ e.flushed.link.pool.free ≠ []) := by
          refine Or.inr ⟨?_, free_flushed_ne_nil h hflows⟩
          rcases htries with hmany | ⟨-, hnonempty⟩
          · omega
          · exact absurd hfree hnonempty
        exact hsome (hflows.congr hflushed) hnext
    · refine ⟨some ⟨slot, length⟩,
        { e with link := { e.link with pool := { e.link.pool with free := rest } } }, ?_, ?_, ?_⟩
      · have hattempt : (onLink (Transport.alloc length)).attempt e =
            (.ok (.ok ⟨slot, length⟩) { e with link :=
              { e.link with pool := { e.link.pool with free := rest } } } :
              EStateM.Result LinkError OnMemory (Except LinkError Descriptor)) := by
          simp only [Action.attempt, onLink, Action.on, Transport.alloc]
          rw [halloc]
        rw [reserveTries, Action.bind_apply, hattempt]
        rfl
      · refine ⟨⟨(List.append_nil _).symm, rfl, rfl, rfl, rfl⟩, rfl, rfl, haccounts, ?_⟩
        intro d hd
        rw [← Option.some.inj hd]
      · intro _ _ hnone
        cases hnone

/-- A buffer is found, or the frame has to be dropped; on a link that flows a buffer is found. -/
theorem reserve_reserves (length : Nat) (hlength : length ≤ bufferSize) (e : OnMemory)
    (h : e.link.pool.Accounts []) :
    ∃ d? e', reserve length e = .ok d? e' ∧ Reserves e e' length d? ∧
      (e.link.Flows → d? ≠ none) := by
  have hdrained := MemoryLink.drainAcks_queued e.link
  have haccounts : (Transport.drainAcks e.link).pool.Accounts [] := by
    rw [MemoryLink.drainAcks_eq]
    exact TransmitPool.collected_accounts h
  obtain ⟨d?, e', htry, hreserves, hsome⟩ := reserveTries_reserves length hlength
    (maxAllocRetries + 1) { e with link := Transport.drainAcks e.link } haccounts
  refine ⟨d?, e', htry, ?_, ?_⟩
  · exact ⟨hdrained.trans hreserves.queued, hreserves.config, hreserves.resolver,
      hreserves.accounts, hreserves.length_eq⟩
  · intro hflows
    exact hsome (hflows.congr hdrained) (Or.inl (by decide))

end Endpoint

end RomCast
