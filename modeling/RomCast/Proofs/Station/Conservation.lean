import RomCast.Proofs.Link.Recorded
import RomCast.Proofs.Station.Node

set_option autoImplicit false

/-!
# Transmit buffers are conserved

Between two operations of a node no transmit buffer is in anyone's hands: each of them is free,
waiting or sent, whatever the operations were, whether they failed, and whatever the link met
(`buffers_conserved`).  During an operation at most one buffer is outside of the pool, and a buffer
that is handed out is not one of those that wait.  So none is lost, none is given back twice, and
none is filled again before its frame was sent.
-/

namespace RomCast

/-- The `count` buffers of a pool lie in its three lists, each of them once. -/
structure TransmitPool.Conserved (count : Nat) (p : TransmitPool) : Prop where
  slots_perm : p.slots.Perm (List.range count)
  inFlight_eq : p.inFlight = p.submitted.length + p.acked.length

theorem TransmitPool.Accounts.conserved {p : TransmitPool} (h : p.Accounts []) :
    p.Conserved p.buffers.length := by
  refine ⟨h.slots, ?_⟩
  have hlength := h.slots.length_eq
  simp only [TransmitPool.slots, List.nil_append, List.length_append, List.length_map,
    List.length_range] at hlength
  rw [inFlight]
  omega

/-- Something that happens to a link from outside, to anything but its transmit buffers: frames
come in or are taken away, the wire or the kernel behaves differently from now on. -/
structure Outside (L : Type) [Transport L] where
  change : L → L
  pool_eq : ∀ link, Transport.pool (change link) = Transport.pool link

/-- The same under a record. -/
def Outside.recorded {L : Type} [Transport L] (o : Outside L) : Outside (Recorded L) where
  change r := { r with link := o.change r.link }
  pool_eq r := o.pool_eq r.link

/-- From now on a call sends at most so many frames. -/
def Outside.batch (n : Option Nat) : Outside MemoryLink where
  change link := { link with batch := n }
  pool_eq _ := rfl

/-- The kernel has other answers ready. -/
def Outside.socket (f : Socket → Socket) : Outside RawLink where
  change := RawLink.mapSocket f
  pool_eq _ := rfl

namespace Node

variable {L σ κ : Type} [Transport L] [ContentSource σ]

/-- Something that happens to a node. -/
inductive Incident (L σ κ : Type) [Transport L] where
  | operation (o : Operation σ κ)
  | outside (o : Outside L)

/-- The node after an incident. -/
def Incident.apply : Incident L σ κ → Node L σ κ → Node L σ κ
  | .operation o, node => o.apply node
  | .outside o, node => node.mapEndpoint fun e => { e with link := o.change e.link }

/-- The same incident at a node whose link keeps a record. -/
def Incident.recorded : Incident L σ κ → Incident (Recorded L) σ κ
  | .operation o => .operation o
  | .outside o => .outside o.recorded

/-- The node after incidents, one after the other. -/
def after (node : Node L σ κ) (incidents : List (Incident L σ κ)) : Node L σ κ :=
  incidents.foldl (fun node incident => incident.apply node) node

variable [PooledTransport L] {count : Nat}

/-- One incident leaves all buffers accounted for. -/
theorem Incident.apply_custody (incident : Incident L σ κ) {node : Node L σ κ}
    {twin : Node (Recorded L) σ κ}
    (h : Paired (Recorded.custody (Tally.trivial L) count) node twin) :
    Paired (Recorded.custody (Tally.trivial L) count) (incident.apply node)
      (incident.recorded.apply twin) := by
  cases incident with
  | operation o => exact o.apply_paired h
  | outside o =>
    refine mapEndpoint_paired ?_ h
    rintro e _ ⟨r, rfl, hr⟩
    have hlink : r.link = e.link := hr.link_eq
    refine ⟨{ r with link := o.change r.link }, rfl, ?_⟩
    rw [hlink]
    exact hr.outside (o.pool_eq e.link) True.intro

/-- Any number of incidents leave all buffers accounted for. -/
theorem after_custody (incidents : List (Incident L σ κ)) {node : Node L σ κ}
    {twin : Node (Recorded L) σ κ}
    (h : Paired (Recorded.custody (Tally.trivial L) count) node twin) :
    Paired (Recorded.custody (Tally.trivial L) count) (node.after incidents)
      (twin.after (incidents.map Incident.recorded)) := by
  induction incidents generalizing node twin with
  | nil => exact h
  | cons incident rest ih => exact ih (incident.apply_custody h)

/-- A node that starts with `count` free buffers has all of them after any operations, each once:
free, waiting or sent, and the latter two are in flight.  The same run with a record shows at most
one buffer outside of the pool at any call, and never one that waits. -/
theorem buffers_conserved (node : Node L σ κ)
    (hstart : Transport.pool node.endpoint.link = TransmitPool.ofCount count)
    (incidents : List (Incident L σ κ)) :
    (Transport.pool (node.after incidents).endpoint.link).Conserved count ∧
      ∃ r : Recorded L,
        (node.withLink { link := node.endpoint.link : Recorded L }).after
          (incidents.map Incident.recorded) = (node.after incidents).withLink r ∧
        r.link = (node.after incidents).endpoint.link ∧
        ∀ call ∈ r.calls, TransmitPool.Whole count call := by
  have hcustody : Recorded.Custody (Tally.trivial L) count none
      node.endpoint.counters.txFrames node.endpoint.link
      { link := node.endpoint.link } := by
    refine ⟨rfl, ?_, ?_, by simp, True.intro⟩
    · rw [hstart]
      exact TransmitPool.ofCount_accounts count
    · rw [hstart]
      exact List.length_replicate
  have hpaired : Paired (Recorded.custody (Tally.trivial L) count) node
      (node.withLink { link := node.endpoint.link }) := ⟨_, rfl, hcustody⟩
  obtain ⟨r, hrun, hr⟩ := after_custody incidents hpaired
  refine ⟨?_, r, hrun, hr.link_eq, hr.calls⟩
  have hconserved := TransmitPool.Accounts.conserved hr.accounts
  rw [hr.length_eq] at hconserved
  exact hconserved

/-- A datagram that is too long for its room, more frames than a link that stands still has buffers,
and a socket that blocks and then fails. -/
def strained : List (Operation Publication Unit) :=
  [.endpoint (.transmit 0 2 (Writer.putBytes (Bytes.zeros 1600))), .endpoint (.send [1, 2]),
    .endpoint (.transmit 0 2 (Writer.putBytes [3, 4])), .poll 0, .endpoint .flush]

theorem buffers_conserved_under_strain :
    let onMemory : Node MemoryLink Publication Unit :=
      .server (Server.new (Endpoint.new (MemoryLink.ofQueue Mac.zero 1) {}))
    let onSocket : Node RawLink Publication Unit :=
      .plain (Endpoint.new { mac := Mac.zero, interface := 1, pool := TransmitPool.ofCount 1 } {})
    let refusals := [some SystemError.wouldBlock, some SystemError.ioError]
    (Transport.pool (onMemory.after (.outside (.batch (some 0)) ::
        strained.map .operation)).endpoint.link).Conserved 1 ∧
      (Transport.pool (onSocket.after (.outside (.socket fun s => { s with refusals }) ::
        strained.map .operation)).endpoint.link).Conserved 1 :=
  ⟨(buffers_conserved _ rfl _).1, (buffers_conserved _ rfl _).1⟩

end Node

end RomCast
