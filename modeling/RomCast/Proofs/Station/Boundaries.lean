import RomCast.Proofs.Station.Abreast
import RomCast.Proofs.Station.Conservation

set_option autoImplicit false

/-!
# Where one poll ends and the next begins

Whether a station reads what comes in with one poll or with many, makes no difference: what it has
made of the frames, and the frames that go out, are the same, also when polls were cut short by
failures of the link (`Node.poll_boundaries_invisible`).  Every poll comes to hearing frames, in
their order and each once (`poll_hears`), so that a run comes to hearing all that were received
(`run_hears`); and flushing, which happens at other places in other runs, only moves frames on.
-/

namespace RomCast

open Incoming (frame? isFault frames faultless)

variable {L A ρ : Type} [Incoming A] [Transport L] [Conduit L A]

namespace Station

variable {handler : Nat → Handler L ρ} {s t : Station L ρ} {items other : List A}

/-! ## Polling -/

section Polling

variable [FlowingTransport L A]

/-- A turn hears the next frame, or it is the last one; then the inbox is empty, or a failure has
been met. -/
theorem turn_hears (h : Timeless L handler) (now now' : Nat) (hst : Abreast (items, other) s t) :
    ∃ taken rest, items = taken ++ rest ∧
      Abreast (rest, other) ((turn (handler now)).state s)
        (hearAll (handler now') (frames taken) t) ∧
      ((taken ≠ [] ∧ ∃ s', turn (handler now) s = .ok true s') ∨
        ((∀ s', turn (handler now) s ≠ .ok true s') ∧
          (rest = [] ∨ rest.countP isFault < items.countP isFault))) := by
  obtain ⟨answer, buffer, rest, hreceives, hlength, hreceive⟩ := receive_receives s
  rw [hst.endpoint.links.inbox] at hreceives
  have hstill := hst.withInbox rest hlength
  cases hreceives with
  | @frame passed rest a frame buffer hpassed hframe hbuffer =>
    obtain ⟨s'', hreact, hturn⟩ : ∃ s'', _ ∧ turn (handler now) s = .ok true s'' :=
      turn_of_receive_some (handler now) hreceive
    have hheard : frames (passed ++ [a]) = [frame] := by
      rw [Incoming.frames_append, Incoming.frames_eq_nil hpassed, frames,
        List.filterMap_cons_some hframe]
      rfl
    refine ⟨passed ++ [a], rest, by simp, ?_, Or.inl ⟨by simp, s'', hturn⟩⟩
    rw [← hst.buffer] at hreact hbuffer
    have hagree := react_hear_abreast h now now' hstill hbuffer
    rw [Action.state_of_ok hturn, hheard, ← Action.state_of_ok hreact]
    exact hagree.state
  | nothing hitems =>
    obtain ⟨hstate, hlast⟩ := turn_of_receive_no_frame (handler now) (.ok none) hreceive nofun
    refine ⟨items, [], (List.append_nil _).symm, ?_, Or.inr ⟨hlast, Or.inl rfl⟩⟩
    rw [hstate, Incoming.frames_eq_nil hitems]
    exact hstill
  | @fault passed rest a answer buffer hpassed hfault hanswer =>
    obtain ⟨hstate, hlast⟩ := turn_of_receive_no_frame (handler now) answer hreceive hanswer
    have hnone : frames (passed ++ [a]) = [] := by
      rw [Incoming.frames_append, Incoming.frames_eq_nil hpassed, frames,
        List.filterMap_cons_none (Incoming.frame?_of_isFault a hfault)]
      rfl
    refine ⟨passed ++ [a], rest, by simp, ?_, Or.inr ⟨hlast, Or.inr ?_⟩⟩
    · rw [hstate, hnone]
      exact hstill
    · show rest.countP isFault < (passed ++ a :: rest).countP isFault
      rw [List.countP_append, List.countP_cons_of_pos hfault]
      omega

/-- Draining the link hears frame after frame, until the inbox is empty or a failure is met. -/
theorem drainFrom_hears (h : Timeless L handler) (now now' n : Nat)
    (hst : Abreast (items, other) s t) :
    ∃ taken rest, items = taken ++ rest ∧
      Abreast (rest, other) ((drainFrom (handler now) n).state s)
        (hearAll (handler now') (frames taken) t) ∧
      (items.length < n → rest = [] ∨ rest.countP isFault < items.countP isFault) := by
  induction n generalizing s t items with
  | zero => exact ⟨[], items, rfl, hst, fun hn => absurd hn (Nat.not_lt_zero _)⟩
  | succ n ih =>
    obtain ⟨taken, rest, hitems, hheard, hmore⟩ := turn_hears h now now' hst
    unfold drainFrom
    rcases hmore with ⟨hsome, s', hturn⟩ | ⟨hlast, hend⟩
    · rw [Action.state_of_ok hturn] at hheard
      obtain ⟨taken', rest', hrest, hlater, hend⟩ := ih hheard
      refine ⟨taken ++ taken', rest', ?_, ?_, ?_⟩
      · rw [hitems, hrest, List.append_assoc]
      · rw [Action.state_bind_of_ok hturn, if_pos rfl, Action.state_bind_pure,
          Incoming.frames_append, hearAll_append]
        exact hlater
      · intro hn
        have hpos := List.length_pos_iff.mpr hsome
        have hlength : items.length = taken.length + rest.length := by
          rw [hitems, List.length_append]
        have hfaults : items.countP isFault = taken.countP isFault + rest.countP isFault := by
          rw [hitems, List.countP_append]
        refine (hend (by omega)).imp_right fun hfewer => ?_
        omega
    · refine ⟨taken, rest, hitems, ?_, fun _ => hend⟩
      cases hturn : turn (handler now) s with
      | error cause s' =>
        rw [Action.state_of_error hturn] at hheard
        rw [Action.state_bind_of_error hturn]
        exact hheard
      | ok more s' =>
        cases more with
        | true => exact absurd hturn (hlast s')
        | false =>
          rw [Action.state_of_ok hturn] at hheard
          rw [Action.state_bind_of_ok hturn]
          exact hheard

omit [Incoming A] [Conduit L A] [FlowingTransport L A] in
/-- Sending what was queued is a matter of the endpoint. -/
theorem state_flush {e : Endpoint L} (h : Endpoint.flush s.endpoint = .ok () e) :
    (onEndpoint Endpoint.flush).state s = { s with endpoint := e } := by
  rw [onEndpoint, Action.state_on, Action.state_of_ok h]

/-- Flushing one of two stations makes no difference. -/
theorem Abreast.flush (hst : Abreast (items, other) s t) :
    Abreast (items, other) ((onEndpoint Endpoint.flush).state s) t := by
  obtain ⟨e, hflush, hendpoint⟩ := hst.endpoint.flush
  rw [state_flush hflush]
  exact ⟨hendpoint, hst.role, hst.buffer⟩

/-- A poll hears the frames that it takes out of the inbox, and nothing else is to be seen of it.
It ends when the inbox is empty, or when a failure is met. -/
theorem poll_hears (h : Timeless L handler) (now now' : Nat) (hst : Abreast (items, other) s t) :
    ∃ taken rest, items = taken ++ rest ∧
      Abreast (rest, other) ((poll (handler now)).state s)
        (hearAll (handler now') (frames taken) t) ∧
      (rest = [] ∨ rest.countP isFault < items.countP isFault) := by
  obtain ⟨taken, rest, hitems, hheard, hend⟩ :=
    drainFrom_hears h now now' (Transport.pending s.endpoint.link + 1) hst
  have hpending := FlowingTransport.length_inbox_le s.endpoint.link
  rw [hst.endpoint.links.inbox] at hpending
  refine ⟨taken, rest, hitems, ?_, hend (Nat.lt_succ_of_le hpending)⟩
  unfold poll
  rw [Action.state_bind_of_ok (Action.get_apply s)]
  cases hdrain : drainFrom (handler now) (Transport.pending s.endpoint.link + 1) s with
  | error cause s' =>
    rw [Action.state_of_error hdrain] at hheard
    rw [Action.state_bind_of_error hdrain]
    exact hheard
  | ok count s' =>
    rw [Action.state_of_ok hdrain] at hheard
    rw [Action.state_bind_of_ok hdrain, Action.state_bind_pure]
    exact hheard.flush

end Polling

/-! ## Runs -/

/-- Something that happens while a station is polled: something comes in, or it is polled. -/
inductive Occurrence (A : Type) where
  | arrive (a : A)
  | poll (now : Nat)

/-- The station after an occurrence, also when a poll was cut short. -/
def Occurrence.apply (handler : Nat → Handler L ρ) : Occurrence A → Station L ρ → Station L ρ
  | arrive a, s => s.withInbox (Conduit.inbox s.endpoint.link ++ [a]) s.buffer
  | poll now, s => (Station.poll (handler now)).state s

/-- The station after these occurrences. -/
def run (handler : Nat → Handler L ρ) (schedule : List (Occurrence A)) (s : Station L ρ) :
    Station L ρ :=
  schedule.foldl (fun s occurrence => occurrence.apply handler s) s

/-- What has come in meanwhile. -/
def arrivals {A : Type} : List (Occurrence A) → List A
  | [] => []
  | .arrive a :: rest => a :: arrivals rest
  | .poll _ :: rest => arrivals rest

variable [FlowingTransport L A]

/-- A run hears what it takes out of the inbox, however it is polled. -/
theorem run_hears (h : Timeless L handler) (now : Nat) (schedule : List (Occurrence A))
    (hst : Abreast (items, other) s t) :
    ∃ taken rest, items ++ arrivals schedule = taken ++ rest ∧
      Abreast (rest, other) (run handler schedule s) (hearAll (handler now) (frames taken) t) := by
  induction schedule generalizing s t items with
  | nil => exact ⟨[], items, by simp [arrivals], hst⟩
  | cons occurrence schedule ih =>
    cases occurrence with
    | arrive a =>
      have hinbox : Conduit.inbox s.endpoint.link = items := hst.endpoint.links.inbox
      have hlater : Abreast (items ++ [a], other)
          ((Occurrence.arrive a).apply handler s) t := by
        rw [Occurrence.apply, hinbox]
        exact hst.withInbox _ rfl
      obtain ⟨taken, rest, htaken, hheard⟩ := ih hlater
      refine ⟨taken, rest, ?_, hheard⟩
      rw [← htaken, List.append_assoc]
      rfl
    | poll time =>
      obtain ⟨first, behind, hitems, hpolled, -⟩ := poll_hears h time now hst
      obtain ⟨taken, rest, htaken, hheard⟩ := ih hpolled
      refine ⟨first ++ taken, rest, ?_, ?_⟩
      · rw [List.append_assoc, ← htaken, ← List.append_assoc, ← hitems]
        rfl
      · rw [Incoming.frames_append, hearAll_append]
        exact hheard

/-- A station that is polled more often than failures are to be met has received everything. -/
theorem inbox_run_polls (h : Timeless L handler) {times : List Nat}
    (hst : Abreast (items, other) s t) (htimes : items = [] ∨ items.countP isFault < times.length) :
    Conduit.inbox (run handler (times.map (Occurrence.poll (A := A))) s).endpoint.link = [] := by
  induction times generalizing s t items with
  | nil =>
    rcases htimes with rfl | hnever
    · exact hst.endpoint.links.inbox
    · exact absurd hnever (Nat.not_lt_zero _)
  | cons time times ih =>
    obtain ⟨taken, rest, hitems, hpolled, hend⟩ := poll_hears h time 0 hst
    refine ih hpolled ?_
    rcases htimes with rfl | hmany
    · exact Or.inl (List.append_eq_nil_iff.mp hitems.symm).2
    · refine hend.imp_right fun hfewer => ?_
      rw [List.length_cons] at hmany
      omega

/-! ## Outcomes -/

/-- The station after it was flushed so many times. -/
def flushes : Nat → Station L ρ → Station L ρ
  | 0, s => s
  | n + 1, s => flushes n ((onEndpoint Endpoint.flush).state s)

/-- The frames that a station has submitted and its link has not sent yet. -/
def waiting (s : Station L ρ) : List Bytes := (Transport.pool s.endpoint.link).waiting

/-- Two stations that have sent everything, and differ at most in the time of a question.  The role
is the server's modules, or the client's replicas, their journals and whom each is to signal. -/
structure SameOutcome (s t : Station L ρ) : Prop where
  role : t.role = s.role
  resolver : t.endpoint.resolver.timeless = s.endpoint.resolver.timeless
  identification : t.endpoint.identification = s.endpoint.identification
  counters : t.endpoint.counters = s.endpoint.counters
  sent : Conduit.sent t.endpoint.link = Conduit.sent s.endpoint.link
  waiting : s.waiting = []
  waiting' : t.waiting = []

/-- Two stations with the same outcome, once everything submitted has been flushed. -/
def Concurs (s t : Station L ρ) : Prop :=
  ∀ m n, s.waiting.length ≤ m → t.waiting.length ≤ n → SameOutcome (flushes m s) (flushes n t)

theorem Abreast.flushes (hst : Abreast (items, other) s t) (n : Nat) :
    Abreast (items, other) (flushes n s) t := by
  induction n generalizing s with
  | zero => exact hst
  | succ n ih => exact ih hst.flush

/-- Every flush sends something, until nothing waits. -/
theorem Abreast.waiting_flushes (hst : Abreast (items, other) s t) {n : Nat}
    (hn : s.waiting.length ≤ n) : (Station.flushes n s).waiting = [] := by
  induction n generalizing s with
  | zero => exact List.eq_nil_of_length_eq_zero (Nat.le_zero.mp hn)
  | succ n ih =>
    obtain ⟨l, hflush, -, hfewer⟩ := Endpoint.flush_flowed hst.endpoint.links.ready
    have hlength : (Transport.pool s.endpoint.link).waiting.length ≤ n + 1 := hn
    refine ih hst.flush ?_
    rw [state_flush hflush]
    show (Transport.pool l).waiting.length ≤ n
    omega

theorem Abreast.concurs (hst : Abreast (items, other) s t) : Concurs s t := by
  intro m n hm hn
  have hboth := ((hst.flushes m).symm.flushes n).symm
  have hs := hst.waiting_flushes hm
  have ht := hst.symm.waiting_flushes hn
  have hpipeline := hboth.endpoint.links.pipeline
  have hall (u : Station L ρ) (hu : u.waiting = []) :
      Conduit.pipeline u.endpoint.link = Conduit.sent u.endpoint.link := by
    rw [Conduit.pipeline]
    show _ ++ u.waiting = _
    rw [hu, List.append_nil]
  rw [hall _ hs, hall _ ht] at hpipeline
  exact ⟨hboth.role, hboth.endpoint.resolver, hboth.endpoint.identification,
    hboth.endpoint.counters, hpipeline, hs, ht⟩

/-! ## Boundaries -/

/-- A station that was polled once, with this and nothing else in its inbox. -/
def pollOnce (handler : Nat → Handler L ρ) (now : Nat) (given : List A) (s : Station L ρ) :
    Station L ρ :=
  (poll (handler now)).state (s.withInbox given s.buffer)

/-- Whatever comes in and however the station is polled meanwhile, at whatever times: the frames
that it has taken are the oldest ones, and the outcome is the one of a single poll with just these
frames waiting, and the one of hearing them in their order, each once; they are all the frames, once
the inbox is empty.  That is the case after one poll more than failures are left. -/
def BoundariesInvisible (handler : Nat → Handler L ρ) (s : Station L ρ) : Prop :=
  ∀ schedule : List (Occurrence A),
    let after := run handler schedule s
    (∃ given : List A,
      given ++ faultless (Conduit.inbox after.endpoint.link) =
        faultless (Conduit.inbox s.endpoint.link ++ arrivals schedule) ∧
      ∀ now, Concurs after (pollOnce handler now given s) ∧
        Concurs after (hearAll (handler now) (frames given) s)) ∧
    ∀ times : List Nat, (Conduit.inbox after.endpoint.link).countP isFault < times.length →
      Conduit.inbox (run handler (times.map .poll) after).endpoint.link = []

theorem boundariesInvisible (h : Timeless L handler) (hready : Conduit.Ready s.endpoint.link) :
    BoundariesInvisible handler s := by
  intro schedule after
  have hstart := abreast_refl hready
  obtain ⟨taken, rest, hall, hafter⟩ := run_hears h 0 schedule hstart
  have hinbox : Conduit.inbox after.endpoint.link = rest := hafter.endpoint.links.inbox
  refine ⟨⟨faultless taken, ?_, fun now => ⟨?_, ?_⟩⟩, fun times htimes => ?_⟩
  · rw [hinbox, hall, Incoming.faultless_append]
  · -- What the single poll is given has no failures in it, so that it takes everything.
    have hgiven : Abreast (faultless taken, Conduit.inbox s.endpoint.link)
        (s.withInbox (faultless taken) s.buffer) s := hstart.withInbox _ rfl
    obtain ⟨taken', rest', htaken, honce, hend⟩ := poll_hears h now 0 hgiven
    have hempty : rest' = [] := by
      rcases hend with hempty | hfewer
      · exact hempty
      · rw [Incoming.countP_faultless] at hfewer
        exact absurd hfewer (Nat.not_lt_zero _)
    rw [hempty, List.append_nil] at htaken
    rw [← htaken, Incoming.frames_faultless] at honce
    exact (hafter.trans honce.symm).concurs
  · rw [Incoming.frames_faultless]
    exact (hafter.trans (hearAll_abreast h 0 now (frames taken) hstart)).concurs
  · rw [hinbox] at htimes
    exact inbox_run_polls h hafter (Or.inr htimes)

end Station

/-! ## Servers and clients -/

namespace Node

variable {σ κ : Type} [ContentSource σ]

/-- What `Station.BoundariesInvisible` says, for a node that is polled. -/
def BoundariesInvisible : Node L σ κ → Prop
  | plain _ => True
  | server s => Station.BoundariesInvisible Server.handler s
  | client c => Station.BoundariesInvisible Client.handler c

omit [Incoming A] [Conduit L A] in
/-- Whatever a node has done, its buffers are all there. -/
theorem after_accounts [PooledTransport L] {count : Nat} (node : Node L σ κ)
    (hstart : Transport.pool node.endpoint.link = TransmitPool.ofCount count)
    (history : List (Incident L σ κ)) :
    (Transport.pool (node.after history).endpoint.link).Accounts [] ∧
      (Transport.pool (node.after history).endpoint.link).buffers.length = count := by
  have hcustody : Recorded.Custody (Tally.trivial L) count none
      node.endpoint.counters.txFrames node.endpoint.link { link := node.endpoint.link } := by
    refine ⟨rfl, ?_, ?_, fun _ hcall => absurd hcall List.not_mem_nil, True.intro⟩
    · rw [hstart]
      exact TransmitPool.ofCount_accounts count
    · rw [hstart]
      exact List.length_replicate
  have hpaired : Paired (Recorded.custody (Tally.trivial L) count) node
      (node.withLink { link := node.endpoint.link }) := ⟨_, rfl, hcustody⟩
  obtain ⟨r, -, hr⟩ := after_custody history hpaired
  exact ⟨hr.accounts, hr.length_eq⟩

/-- Over any link that flows, with at least one buffer, no poll boundary is to be seen. -/
theorem boundariesInvisible_after [FlowingTransport L A] {count : Nat} (hcount : 0 < count)
    (node : Node L σ κ) (hstart : Transport.pool node.endpoint.link = TransmitPool.ofCount count)
    (history : List (Incident L σ κ)) (hflows : Conduit.Flows (node.after history).endpoint.link) :
    (node.after history).BoundariesInvisible := by
  obtain ⟨haccounts, hbuffers⟩ := after_accounts node hstart history
  have hready : Conduit.Ready (node.after history).endpoint.link :=
    ⟨haccounts, hbuffers.symm ▸ hcount, hflows⟩
  generalize node.after history = now at hready ⊢
  cases now with
  | plain e => trivial
  | server s => exact Station.boundariesInvisible Server.handler_timeless hready
  | client c => exact Station.boundariesInvisible Client.handler_timeless hready

/-- Servers and clients with at least one buffer, over a link in memory that is not held up or over
a raw socket whose kernel accepts every send: whatever they did before, it makes no difference where
one poll ends and the next begins, nor that some were cut short. -/
theorem poll_boundaries_invisible {count : Nat} (hcount : 0 < count) :
    (∀ (node : Node MemoryLink σ κ) (history : List (Incident MemoryLink σ κ)),
      node.endpoint.link.pool = TransmitPool.ofCount count →
      (node.after history).endpoint.link.batch ≠ some 0 →
      (node.after history).BoundariesInvisible) ∧
    ∀ (node : Node RawLink σ κ) (history : List (Incident RawLink σ κ)),
      node.endpoint.link.pool = TransmitPool.ofCount count →
      (∀ refusal ∈ (node.after history).endpoint.link.socket.refusals, refusal = none) →
      (node.after history).BoundariesInvisible :=
  ⟨fun node history hstart hbatch => boundariesInvisible_after hcount node hstart history hbatch,
    fun node history hstart haccepts =>
      boundariesInvisible_after hcount node hstart history haccepts⟩

/-- A question for this address. -/
def questionFor (ip : Ipv4Address) : Bytes :=
  Endpoint.requestFrame (Mac.ofBytes [2, 0, 0, 0, 0, 7]) Ipv4Address.unspecified ip

/-- Two questions come in over a socket with a failure between them: the first poll answers one, the
second the other, and both answers go out. -/
theorem boundaries_invisible_around_failure :
    let ip : Ipv4Address := Ipv4Address.ofBytes [10, 0, 0, 1]
    let onMemory : Server MemoryLink Publication := Server.new (Endpoint.new
      { MemoryLink.ofQueue Mac.zero 1 with batch := some 1 } { source := some ip })
    let onSocket : Client RawLink Unit := Client.new (Endpoint.new
      { mac := Mac.zero, interface := 1, pool := TransmitPool.ofCount 1 } { source := some ip }) 0
    let schedule : List (Station.Occurrence Arrival) :=
      [.arrive (.frame (questionFor ip) 0), .arrive (.fault .ioError),
        .arrive (.frame (questionFor ip) 0), .poll 3, .poll 5]
    let after := Station.run Client.handler schedule onSocket
    Station.BoundariesInvisible Server.handler onMemory ∧
      Station.BoundariesInvisible Client.handler onSocket ∧
      after.endpoint.link.socket.sent.length = 2 ∧ after.endpoint.counters.rxFrames = 2 := by
  intro ip onMemory onSocket schedule after
  obtain ⟨hmemory, hsocket⟩ :=
    poll_boundaries_invisible (σ := Publication) (κ := Unit) Nat.one_pos
  refine ⟨hmemory (.server onMemory) [] rfl nofun, hsocket (.client onSocket) [] rfl nofun, ?_⟩
  unfold after schedule onSocket
  decide +kernel

end Node

end RomCast
