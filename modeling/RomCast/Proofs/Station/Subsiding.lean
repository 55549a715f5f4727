import RomCast.Proofs.Resolver
import RomCast.Proofs.Station.Working

set_option autoImplicit false

/-!
# What frames set off

A signal may set off a request, a request fragments, and a question for an address an answer;
answers and fragments set off nothing.  A datagram may go out behind a question, which weighs less
than whatever a datagram answers.  Hence everything that a station sends weighs less than the frame
that it has read, whatever that frame is and whoever made it (`turn_subsides`).
-/

namespace RomCast

/-- How much a packet may set off. -/
def MessageBody.weight : MessageBody → Nat
  | signal => 3
  | update => 2
  | data _ => 0

theorem MessageBody.weight_le (body : MessageBody) : body.weight ≤ 3 := by
  cases body with
  | signal => exact Nat.le_refl 3
  | update => exact Nat.le_succ 2
  | data f => exact Nat.zero_le 3

/-- A packet that sets off anything weighs more than a question. -/
theorem MessageBody.two_le_weight {body : MessageBody} (h : 0 < body.weight) : 2 ≤ body.weight := by
  cases body with
  | signal => exact Nat.le_succ 2
  | update => exact Nat.le_refl 2
  | data f => cases h

/-- How much what has been decoded may set off. -/
def Message.weightOf (packet : Option Message) : Nat :=
  (packet.map fun message => message.body.weight).getD 0

namespace Outgoing

/-- How much a frame that has been sent may set off. -/
def weight : Outgoing → Nat
  | arp opcode _ _ => if opcode = ArpPacket.opRequest then 1 else 0
  | datagram _ content _ => Message.weightOf (Message.decode content).toOption

/-- Frames without packets and without ARP traffic are none. -/
theorem eq_nil_of_silent {out : List Outgoing} (hpayloads : payloads out = [])
    (hchatter : totalChatter out = 0) : out = [] := by
  cases out with
  | nil => rfl
  | cons o rest =>
    cases o with
    | arp opcode bytes valid =>
      rw [totalChatter_cons, chatter] at hchatter
      split at hchatter <;> omega
    | datagram a content fits => cases hpayloads

end Outgoing

namespace Station

variable {ρ : Type} {queue : Nat}

/-- How much a frame may set off at a station with this configuration. -/
def weight (config : Endpoint.Config) (frame : Bytes) : Nat :=
  max (Message.weightOf (packetIn? config (frame.take bufferSize)))
    (if IsQuestion (frame.take bufferSize) then 1 else 0)

theorem weight_le (config : Endpoint.Config) (frame : Bytes) : weight config frame ≤ 3 := by
  refine Nat.max_le.mpr ⟨?_, ?_⟩
  · cases packetIn? config (frame.take bufferSize) with
    | none => exact Nat.zero_le 3
    | some message => exact message.body.weight_le
  · split <;> omega

/-- What has been sent sets off no more at whoever reads it. -/
theorem weight_frame_le (config : Endpoint.Config) (o : Outgoing) :
    weight config o.frame ≤ o.weight := by
  unfold weight
  rw [o.take_frame]
  cases o with
  | arp opcode bytes valid =>
    rw [Outgoing.frame, packetIn?_arp config valid]
    refine Nat.max_le.mpr ⟨Nat.zero_le _, ?_⟩
    by_cases hquestion : IsQuestion bytes
    · have hopcode : opcode = ArpPacket.opRequest := valid.opcode_eq.symm.trans hquestion.2
      rw [if_pos hquestion, Outgoing.weight]
      exact Nat.le_of_eq (if_pos hopcode).symm
    · rw [if_neg hquestion]
      exact Nat.zero_le _
  | datagram a content fits =>
    have hquestion : ¬ IsQuestion (a.frame content) := by
      intro hquestion
      have htype := (Outgoing.etherType_datagram a content).symm.trans hquestion.1
      exact absurd htype (by decide)
    rw [Outgoing.frame, if_neg hquestion, packetIn?_frame config a fits, Nat.max_zero]
    split
    · exact Nat.le_refl _
    · exact Nat.zero_le _

section Roles

/-- A role that answers packets which weigh at most so much, and each with packets that weigh
less. -/
def Subsides (top : Nat) (answer : ρ → Message → List Bytes) : Prop :=
  ∀ role message packet, packet ∈ answer role message → message.body.weight ≤ top ∧
    ∃ m, Message.decode packet = .ok m ∧ m.body.weight < message.body.weight

variable {change : Message → ρ → ρ} {answer : ρ → Message → List Bytes}
  {handler : Handler MemoryLink ρ} {top : Nat} {s s' : Station MemoryLink ρ}

/-! ## Turn by turn -/

/-- Whatever frame is read, everything that is sent weighs less than it. -/
theorem turn_subsides (htop : 0 < top) (hsubsides : Subsides top answer) {frame : Bytes}
    {rest : List Bytes} {answers out : List Outgoing}
    (h : Turned change answer s s' frame rest answers out) :
    ∀ o ∈ answers ++ out, o.weight < top ∧ o.weight < weight s.endpoint.config frame := by
  intro o ho
  rcases List.mem_append.mp ho with hanswer | hout
  · -- The answer to a question weighs nothing.
    rcases h.answers with hnil | ⟨htype, hopcode, bytes, valid, hone⟩
    · rw [hnil] at hanswer
      cases hanswer
    · rw [hone, List.mem_singleton] at hanswer
      have hweight : o.weight = 0 := by
        rw [hanswer]
        rfl
      have hquestion : IsQuestion (frame.take bufferSize) := ⟨htype, hopcode⟩
      rw [hweight]
      refine ⟨htop, Nat.lt_of_lt_of_le Nat.zero_lt_one ?_⟩
      unfold weight
      rw [if_pos hquestion]
      exact Nat.le_max_right _ _
  · have hsublist := h.sublist
    have hchatter := h.chatter
    have hsilent : ((packetIn? s.endpoint.config (frame.take bufferSize)).map
        (answer s.role)).getD [] ≠ [] := by
      intro hnil
      rw [hnil] at hsublist hchatter
      rw [Outgoing.eq_nil_of_silent (List.sublist_nil.mp hsublist) (Nat.le_zero.mp hchatter)]
        at hout
      cases hout
    cases hpacket : packetIn? s.endpoint.config (frame.take bufferSize) with
    | none =>
      rw [hpacket] at hsilent
      exact absurd rfl hsilent
    | some message =>
      rw [hpacket] at hsublist hsilent
      obtain ⟨packet, hmem⟩ := List.exists_mem_of_ne_nil _ hsilent
      obtain ⟨hle, m, -, hless⟩ := hsubsides s.role message packet hmem
      have htwo := MessageBody.two_le_weight (Nat.zero_lt_of_lt hless)
      -- It suffices to weigh less than the packet that was read.
      suffices hlighter : o.weight < message.body.weight by
        refine ⟨Nat.lt_of_lt_of_le hlighter hle, Nat.lt_of_lt_of_le hlighter ?_⟩
        unfold weight
        rw [hpacket]
        exact Nat.le_max_left _ _
      cases o with
      | arp opcode bytes valid =>
        rw [Outgoing.weight]
        split <;> omega
      | datagram a content fits =>
        have hcarried : content ∈ Outgoing.payloads out :=
          List.mem_filterMap.mpr ⟨_, hout, rfl⟩
        obtain ⟨-, m', hdecode, hless'⟩ :=
          hsubsides s.role message content (hsublist.subset hcarried)
        rw [Outgoing.weight, hdecode]
        exact hless'

/-- What lies before a station does not matter to what it has sent. -/
theorem emits_popped {e e' : Endpoint.OnMemory} {out : List Outgoing} (h : e.Emits e' out)
    (rest : List Bytes) : Endpoint.Emits { e with link := { e.link with inbound := rest } }
      { e' with link := { e'.link with inbound := rest } } out :=
  ⟨⟨h.queued.pipeline, rfl, h.queued.batch, h.queued.mac, h.queued.buffers⟩, h.accounts, h.config,
    h.addressed⟩

/-- When all inbound frames have been read, everything that was sent weighs less than the heaviest
of them. -/
theorem turns_subside (hplays : Plays change answer handler) (htop : 0 < top)
    (hsubsides : Subsides top answer) (n : Nat) (frames : List Bytes) (h : Intact queue s)
    (hinbound : s.endpoint.link.inbound = frames)
    (hframes : ∀ frame ∈ frames, weight s.endpoint.config frame ≤ n) :
    ∃ out, (s.popped []).Emits (afterTurns handler frames.length s).endpoint out ∧
      ∀ o ∈ out, o.weight < top ∧ o.weight < n := by
  induction frames generalizing s with
  | nil =>
    refine ⟨[], ?_, nofun⟩
    have hsame : s.popped [] = s.endpoint := by rw [popped, ← hinbound]
    rw [hsame]
    exact Endpoint.emits_refl h.accounts
  | cons frame rest ih =>
    obtain ⟨s₁, answers, out₁, hturn, hturned⟩ := turn_turned hplays hinbound h.accounts h.buffer
    have hstate : (turn handler).state s = s₁ := Action.state_of_ok hturn
    have hconfig : s₁.endpoint.config = s.endpoint.config := hturned.emits.config
    obtain ⟨out₂, hemits, hlight⟩ := ih (h.turned hturned) hturned.emits.queued.inbound fun f hf =>
      hconfig ▸ hframes f (List.mem_cons_of_mem _ hf)
    refine ⟨answers ++ out₁ ++ out₂, ?_, ?_⟩
    · rw [List.length_cons, afterTurns, hstate]
      exact (emits_popped hturned.emits []).trans hemits
    · intro o ho
      rcases List.mem_append.mp ho with hfirst | hlater
      · obtain ⟨hlow, hless⟩ := turn_subsides htop hsubsides hturned o hfirst
        exact ⟨hlow, Nat.lt_of_lt_of_le hless (hframes frame (List.mem_cons_self ..))⟩
      · exact hlight o hlater

end Roles

/-! ## Polling -/

/-- A station on a link without a limit, when everything that it has sent is on the wire. -/
structure Flushed (queue : Nat) (s : Station MemoryLink ρ) : Prop where
  intact : Intact queue s
  batch : s.endpoint.link.batch = none
  submitted : s.endpoint.link.pool.submitted = []

variable {s s' : Station MemoryLink ρ}

/-- Without a limit, a flush puts everything onto the wire. -/
theorem flushed_flush (h : Intact queue s) (hbatch : s.endpoint.link.batch = none) :
    Flushed queue { s with endpoint := s.endpoint.flushed } := by
  have hemits := Endpoint.flushed_emits h.accounts
  refine ⟨h.emit hemits, hemits.queued.batch.trans hbatch, ?_⟩
  show s.endpoint.flushed.link.pool.submitted = []
  rw [Endpoint.submitted_flushed, MemoryLink.quota, hbatch]
  exact List.drop_length

/-- The frames of a flushed station are all on the wire. -/
theorem Flushed.pipeline (h : Flushed queue s) :
    s.endpoint.link.pipeline = s.endpoint.link.outbound := by
  rw [MemoryLink.pipeline, TransmitPool.waiting, h.submitted]
  exact List.append_nil _

/-- What happens on the wires does not matter. -/
theorem Flushed.congr (h : Flushed queue s)
    (hpool : s'.endpoint.link.pool = s.endpoint.link.pool)
    (hbatch : s'.endpoint.link.batch = s.endpoint.link.batch) (hbuffer : s'.buffer = s.buffer) :
    Flushed queue s' :=
  ⟨h.intact.congr hpool hbuffer, hbatch.trans h.batch, hpool ▸ h.submitted⟩

theorem Flushed.give (h : Flushed queue s) (frames : List Bytes) :
    Flushed queue (Exchange.give frames s) := by
  rw [give_eq]
  exact h.congr rfl rfl rfl

/-- A flushed station that is polled puts only lighter frames onto the wire than it has read. -/
theorem Flushed.poll {change : Message → ρ → ρ} {answer : ρ → Message → List Bytes}
    {handler : Handler MemoryLink ρ} {top : Nat} (hplays : Plays change answer handler)
    (htop : 0 < top) (hsubsides : Subsides top answer) (h : Flushed queue s) (n : Nat)
    (hframes : ∀ frame ∈ s.endpoint.link.inbound, weight s.endpoint.config frame ≤ n) :
    ∃ (s' : Station MemoryLink ρ) (out : List Outgoing),
      Station.poll handler s = .ok s.endpoint.link.inbound.length s' ∧ Flushed queue s' ∧
      s'.endpoint.link.inbound = [] ∧
      s'.endpoint.link.outbound = s.endpoint.link.outbound ++ out.map Outgoing.frame ∧
      ∀ o ∈ out, o.weight < top ∧ o.weight < n := by
  obtain ⟨out, hemits, hlight⟩ := turns_subside hplays htop hsubsides n _ h.intact rfl hframes
  have hafter := h.intact.afterTurns hplays s.endpoint.link.inbound.length
  have hdone := flushed_flush hafter (hemits.queued.batch.trans h.batch)
  refine ⟨_, out, h.intact.poll_eq hplays, hdone, ?_, ?_, hlight⟩
  · exact hemits.flush.queued.inbound
  · rw [← hdone.pipeline, ← h.pipeline]
    exact hemits.flush.queued.pipeline

end Station

end RomCast
