import RomCast.Proofs.Endpoint.Related
import RomCast.Proofs.Link.Recorded

set_option autoImplicit false

/-!
# Frames go out once and in order

On a link in memory the frames that were taken off the wire, the ones that still lie on it, and the
ones that wait to be sent are together the frames that were submitted: each once, in the order of
their submission, and with the bytes that they had then (`frames_sent_once`).  That the buffers are
used again, and that the wire stands still at times, does not show in what is sent.
-/

namespace RomCast

/-- What was taken off the wire, what is on it, and what waits are the submitted frames, and have
been counted. -/
def MemoryLink.fifo (taken : List Bytes) : Tally MemoryLink where
  Holds n link frames := taken ++ link.pipeline = frames ∧ n = frames.length
  setPool := by
    rintro n link _ p ⟨rfl, hcount⟩ hwaiting
    refine ⟨?_, hcount⟩
    show taken ++ (link.outbound ++ p.waiting) = _
    rw [hwaiting]
    rfl
  submit := by
    rintro n link _ p frame ⟨rfl, hcount⟩ hwaiting
    refine ⟨?_, by simp only [hcount, List.length_append, List.length_singleton]⟩
    show taken ++ (link.outbound ++ p.waiting) = taken ++ link.pipeline ++ [frame]
    rw [hwaiting]
    simp only [pipeline, Transport.pool, List.append_assoc]
  process := by
    intro n link link' frames h hprocess
    obtain rfl : link.sendFronts link.quota = link' := by
      injection hprocess
    have hpipeline := (link.sendFronts_queued link.quota).pipeline
    rw [List.append_nil] at hpipeline
    rw [hpipeline]
    exact h
  receive := by
    intro n link frames h buffer
    have hpipeline : (link.receiveInto buffer).2.1.pipeline = link.pipeline := by
      unfold receiveInto
      split <;> rfl
    show taken ++ (link.receiveInto buffer).2.1.pipeline = frames ∧ n = frames.length
    rw [hpipeline]
    exact h

namespace Endpoint

/-- Something that happens at an endpoint on a link in memory. -/
inductive Incident where
  | operation (o : Operation)
  /-- From now on a call sends at most so many frames. -/
  | batch (n : Option Nat)
  /-- The `n` oldest frames are taken off the wire. -/
  | take (n : Nat)
  /-- A frame is put before the link. -/
  | deliver (frame : Bytes)

/-- An endpoint, and the frames that have been taken off its wire. -/
structure Tapped (L : Type) where
  endpoint : Endpoint L
  taken : List Bytes := []

/-- What an incident other than an operation does to a link in memory, and which frames it takes off
the wire. -/
def Incident.onWire : Incident → MemoryLink → List Bytes × MemoryLink
  | operation _, link => ([], link)
  | batch n, link => ([], { link with batch := n })
  | take n, link => (link.outbound.take n, { link with outbound := link.outbound.drop n })
  | deliver frame, link => ([], link.deliver frame)

/-- An endpoint after an incident, when its link is a link in memory or holds one. -/
def Tapped.stepVia {L : Type} [Transport L] (memory : L → MemoryLink) (put : MemoryLink → L → L)
    (t : Tapped L) : Incident → Tapped L
  | .operation o => { t with endpoint := o.apply t.endpoint }
  | incident =>
      let (taken, link) := incident.onWire (memory t.endpoint.link)
      ⟨{ t.endpoint with link := put link t.endpoint.link }, t.taken ++ taken⟩

/-- An endpoint on a link in memory after an incident. -/
def Tapped.step : Tapped MemoryLink → Incident → Tapped MemoryLink :=
  stepVia id fun link _ => link

/-- The same while the link keeps a record. -/
def Tapped.stepRecorded : Tapped (Recorded MemoryLink) → Incident → Tapped (Recorded MemoryLink) :=
  stepVia Recorded.link fun link r => { r with link }

/-- An endpoint, and the same one over a link that has kept a record: what was submitted is what
was taken, is on the wire, or waits. -/
structure Traced (count : Nat) (t : Tapped MemoryLink) (u : Tapped (Recorded MemoryLink)) :
    Prop where
  paired : Paired (Recorded.custody (MemoryLink.fifo t.taken) count) none t.endpoint u.endpoint
  taken_eq : u.taken = t.taken

variable {count : Nat} {t : Tapped MemoryLink} {u : Tapped (Recorded MemoryLink)}

/-- Taking frames off the wire, or leaving them there, loses none. -/
theorem Incident.onWire_pipeline (incident : Incident) (link : MemoryLink) :
    (incident.onWire link).1 ++ (incident.onWire link).2.pipeline = link.pipeline ∧
      (incident.onWire link).2.pool = link.pool := by
  cases incident with
  | operation o => exact ⟨rfl, rfl⟩
  | batch n => exact ⟨rfl, rfl⟩
  | take n =>
    refine ⟨?_, rfl⟩
    show link.outbound.take n ++ (link.outbound.drop n ++ link.pool.waiting) = _
    rw [← List.append_assoc, List.take_append_drop]
    rfl
  | deliver frame => exact ⟨rfl, rfl⟩

theorem Traced.onWire (h : Traced count t u) (incident : Incident) :
    Traced count
      ⟨{ t.endpoint with link := (incident.onWire t.endpoint.link).2 },
        t.taken ++ (incident.onWire t.endpoint.link).1⟩
      ⟨{ u.endpoint with link :=
          { u.endpoint.link with link := (incident.onWire u.endpoint.link.link).2 } },
        u.taken ++ (incident.onWire u.endpoint.link.link).1⟩ := by
  obtain ⟨⟨r, hover, hr⟩, htaken⟩ := h
  obtain ⟨hpipeline, hpool⟩ := incident.onWire_pipeline t.endpoint.link
  have hlink : u.endpoint.link.link = t.endpoint.link := by
    rw [hover]
    exact hr.link_eq
  rw [hlink, htaken]
  have htally : (MemoryLink.fifo (t.taken ++ (incident.onWire t.endpoint.link).1)).Holds
      t.endpoint.counters.txFrames (incident.onWire t.endpoint.link).2 r.frames := by
    refine ⟨?_, hr.tally.2⟩
    rw [List.append_assoc, hpipeline]
    exact hr.tally.1
  refine ⟨⟨{ r with link := (incident.onWire t.endpoint.link).2 }, ?_, hr.outside hpool htally⟩,
    rfl⟩
  rw [hover]
  rfl

/-- One incident loses no frame and repeats none. -/
theorem Traced.step (h : Traced count t u) (incident : Incident) :
    Traced count (t.step incident) (u.stepRecorded incident) := by
  cases incident with
  | operation o => exact ⟨o.apply_paired h.paired, h.taken_eq⟩
  | batch n => exact h.onWire (.batch n)
  | take n => exact h.onWire (.take n)
  | deliver frame => exact h.onWire (.deliver frame)

theorem Traced.run (h : Traced count t u) (incidents : List Incident) :
    Traced count (incidents.foldl Tapped.step t) (incidents.foldl Tapped.stepRecorded u) := by
  induction incidents generalizing t u with
  | nil => exact h
  | cons incident rest ih => exact ih (h.step incident)

/-- Whatever happens at a new endpoint on a link in memory, what was taken off its wire, what is on
the wire, and what waits is what it submitted, frame by frame and byte by byte, and as many as it
has counted.  The frames it submitted are in the record of the same run with a record. -/
theorem frames_sent_once (mac : Mac) (queue : Nat) (batch : Option Nat) (config : Config)
    (incidents : List Incident) :
    let start : Endpoint MemoryLink := new { MemoryLink.ofQueue mac queue with batch } config
    let after := incidents.foldl Tapped.step ⟨start, []⟩
    let recorded := incidents.foldl Tapped.stepRecorded ⟨start.withLink { link := start.link }, []⟩
    recorded = ⟨after.endpoint.withLink recorded.endpoint.link, after.taken⟩ ∧
      recorded.endpoint.link.link = after.endpoint.link ∧
      after.taken ++ (after.endpoint.link.outbound ++ after.endpoint.link.pool.waiting) =
        recorded.endpoint.link.frames ∧
      after.endpoint.counters.txFrames = recorded.endpoint.link.frames.length := by
  intro start after recorded
  have hstart : Traced queue ⟨start, []⟩ ⟨start.withLink { link := start.link }, []⟩ := by
    refine ⟨⟨_, rfl, rfl, TransmitPool.ofCount_accounts queue, List.length_replicate, ?_, ?_⟩, rfl⟩
    · intro call hcall
      exact absurd hcall List.not_mem_nil
    · exact ⟨rfl, rfl⟩
  obtain ⟨⟨r, hover, hr⟩, htaken⟩ := hstart.run incidents
  have hrecord : recorded.endpoint.link = r := congrArg Endpoint.link hover
  refine ⟨?_, ?_, ?_, ?_⟩
  · show recorded = _
    rw [hrecord]
    exact congrArg₂ Tapped.mk hover htaken
  · rw [hrecord]
    exact hr.link_eq
  · rw [hrecord]
    exact hr.tally.1
  · rw [hrecord]
    exact hr.tally.2

end Endpoint

end RomCast
