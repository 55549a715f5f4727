import RomCast.Proofs.Exchange.Conversation

set_option autoImplicit false

/-!
# Rounds bring a conversation to its end

A round over a channel that does nothing is a sequence of lossless steps (`round_eq`).  Unless
nothing is on its way, two rounds read at least one frame; hence some number of rounds leaves
nothing on its way (`exists_rounds_quiet`).
-/

namespace RomCast

/-- A channel without rules carries every frame once, in order. -/
theorem Channel.carry_nil (number : Nat) (frames : List Bytes) :
    Channel.carry [] number frames = frames := by
  have hbehind : ∀ number, Channel.carryBehind [] none number frames = frames := by
    induction frames with
    | nil =>
      intro number
      rfl
    | cons frame rest ih =>
      intro number
      have hstep : Channel.carryBehind [] none number (frame :: rest) =
          [frame] ++ [] ++ Channel.carryBehind [] none (number + 1) rest := rfl
      rw [hstep, ih]
      rfl
  exact hbehind number

namespace Exchange

variable {κ : Type}

/-- Channels that do nothing. -/
def lossless : Direction → Channel := fun _ => []

/-- So many rounds over channels that do nothing. -/
def rounds (now : Nat) : Nat → Pair κ → Report → Pair κ × Report
  | 0, x, r => (x, r)
  | n + 1, x, r =>
      let (x, r) := round now lossless x r
      rounds now n x r

/-! ## A round in steps

A round has two halves, one for each direction in which frames go; what happens in a half concerns
the station at the end of its direction. -/

/-- What lies before the station at the end of a direction. -/
def inbound (x : Pair κ) : Direction → List Bytes
  | .toClient => x.client.endpoint.link.inbound
  | .toServer => x.server.endpoint.link.inbound

/-- What has been sent in a direction and waits to be carried over. -/
def outbound (x : Pair κ) : Direction → List Bytes
  | .toClient => x.server.endpoint.link.outbound
  | .toServer => x.client.endpoint.link.outbound

/-- So many of the frames that wait are carried over. -/
def Relay.carry : Direction → Nat → Relay
  | .toClient, n => .toClient n
  | .toServer, n => .toServer n

/-- The station at the end of a direction takes a turn. -/
def Relay.read (now : Nat) : Direction → Relay
  | .toClient => .clientTurn now
  | .toServer => .serverTurn now

/-- The station at the end of a direction flushes. -/
def Relay.flush : Direction → Relay
  | .toClient => .clientChore .flush
  | .toServer => .serverChore .flush

/-- A station that has been given frames, has read whatever lies before it, and has flushed. -/
def caughtUp {ρ : Type} (handler : Station.Handler MemoryLink ρ) (frames : List Bytes)
    (s : Station MemoryLink ρ) : Station MemoryLink ρ :=
  let given := give frames s
  let after := Station.afterTurns handler given.endpoint.link.inbound.length given
  { after with endpoint := after.endpoint.flushed }

/-- One half of a round: what waits is carried over, and is read. -/
def half (now : Nat) (x : Pair κ) : Direction → Pair κ
  | .toClient =>
      { server := relieved x.server.endpoint.link.outbound.length x.server
        client := caughtUp (Client.handler now) x.server.endpoint.link.outbound x.client }
  | .toServer =>
      { server := caughtUp (Server.handler now) x.client.endpoint.link.outbound x.server
        client := relieved x.client.endpoint.link.outbound.length x.client }

theorem inbound_carry (x : Pair κ) (d : Direction) :
    (x.relay (.carry d (x.outbound d).length)).inbound d = x.inbound d ++ x.outbound d := by
  cases d with
  | toClient => simp only [Relay.carry, relay, outbound, inbound, Station.give_eq, List.take_length]
  | toServer => simp only [Relay.carry, relay, outbound, inbound, Station.give_eq, List.take_length]

theorem relayAll_reads (now n : Nat) (x : Pair κ) (d : Direction) :
    x.relayAll (List.replicate n (.read now d)) =
      match d with
      | .toClient => { x with client := Station.afterTurns (Client.handler now) n x.client }
      | .toServer => { x with server := Station.afterTurns (Server.handler now) n x.server } := by
  induction n generalizing x with
  | zero => cases d <;> rfl
  | succ n ih =>
    show (x.relay (.read now d)).relayAll (List.replicate n (.read now d)) = _
    rw [ih]
    cases d <;> rfl

/-- Half a round in steps. -/
theorem half_eq (now : Nat) (x : Pair κ) (d : Direction) :
    let given := x.relay (.carry d (x.outbound d).length)
    half now x d =
      (given.relayAll (List.replicate (given.inbound d).length (.read now d))).relay (.flush d) := by
  intro given
  rw [relayAll_reads]
  cases d with
  | toClient =>
    simp only [given, outbound, Relay.carry, relay, List.take_length]
    rfl
  | toServer =>
    simp only [given, outbound, Relay.carry, relay, List.take_length]
    rfl

theorem half_relays (now : Nat) (x : Pair κ) (d : Direction) :
    ∃ relays, half now x d = x.relayAll relays := by
  let given := x.relay (.carry d (x.outbound d).length)
  refine ⟨.carry d (x.outbound d).length ::
    (List.replicate (given.inbound d).length (.read now d) ++ [.flush d]), ?_⟩
  show _ = given.relayAll (_ ++ _)
  rw [relayAll_append, half_eq]
  rfl

/-- What one station has sent is carried over to another one, which reads it. -/
theorem pass_of_poll {ρ ρ' : Type} {handler : Station.Handler MemoryLink ρ'} (d : Direction)
    (sender : Station MemoryLink ρ) (receiver : Station MemoryLink ρ') {count : Nat}
    {after : Station MemoryLink ρ'}
    (hpoll : Station.poll handler (give sender.endpoint.link.outbound receiver) = .ok count after)
    (r : Report) :
    ∃ r', pass lossless d sender receiver (Station.poll handler) r =
      (relieved sender.endpoint.link.outbound.length sender, after, r') := by
  have htaken : takeSent sender = (sender.endpoint.link.outbound,
      relieved sender.endpoint.link.outbound.length sender) := by
    rw [relieved, List.drop_length]
    rfl
  unfold pass
  rw [htaken]
  simp only [lossless, Channel.carry_nil]
  rw [hpoll]
  exact ⟨_, rfl⟩

/-- What one station has sent is carried over to another one, which is polled. -/
theorem pass_eq {ρ ρ' : Type} {change : Message → ρ' → ρ'} {answer : ρ' → Message → List Bytes}
    {handler : Station.Handler MemoryLink ρ'} (hplays : Station.Plays change answer handler)
    (d : Direction) (sender : Station MemoryLink ρ) (receiver : Station MemoryLink ρ')
    {queue : Nat} (h : Station.Intact queue receiver) (r : Report) :
    ∃ r', pass lossless d sender receiver (Station.poll handler) r =
      (relieved sender.endpoint.link.outbound.length sender,
        caughtUp handler sender.endpoint.link.outbound receiver, r') :=
  pass_of_poll d sender receiver ((h.give sender.endpoint.link.outbound).poll_eq hplays) r

/-- One round. -/
def sweep (now : Nat) (x : Pair κ) : Pair κ := half now (half now x .toClient) .toServer

/-- A round is its two halves. -/
theorem round_eq {serverConfig clientConfig : Endpoint.Config} (now : Nat) {x : Pair κ}
    (hserver : Station.Working serverConfig x.server)
    (hclient : Station.Working clientConfig x.client) (r : Report) :
    ∃ r', round now lossless x r = (sweep now x, r') := by
  have hrelieved : Station.Working serverConfig (half now x .toClient).server :=
    hserver.congr rfl rfl rfl rfl
  obtain ⟨r₁, hfirst⟩ := pass_eq (Client.handler_plays now) .toClient x.server x.client
    hclient.intact r
  obtain ⟨r₂, hsecond⟩ := pass_eq (Server.handler_plays now) .toServer
    (half now x .toClient).client (half now x .toClient).server hrelieved.intact r₁
  refine ⟨{ r₂ with rounds := r₂.rounds + 1 }, ?_⟩
  unfold round
  rw [show Client.poll now = Station.poll (Client.handler (L := MemoryLink) (κ := κ) now) from rfl,
    hfirst]
  simp only
  rw [show Server.poll now = Station.poll (Server.handler (L := MemoryLink) now) from rfl]
  simp only [half] at hsecond
  rw [hsecond]
  rfl

/-! ## What is still to be read -/

/-- Where nothing is to be read, a turn does nothing. -/
theorem relay_read_of_nil (now : Nat) {x : Pair κ} {d : Direction} (h : x.inbound d = []) :
    x.relay (.read now d) = x := by
  cases d with
  | toClient =>
    simp only [Relay.read, relay, Action.state_of_ok (Station.turn_of_nil (Client.handler now) h)]
  | toServer =>
    simp only [Relay.read, relay, Action.state_of_ok (Station.turn_of_nil (Server.handler now) h)]

/-- A frame that is read brings the conversation nearer to its end. -/
theorem Talk.read {t : Topic κ} {x : Pair κ} {progress : Progress} {sc cs : List Outgoing}
    (h : Talk t x progress sc cs) (ht : t.Shared) (now : Nat) {d : Direction}
    (hsome : x.inbound d ≠ []) : ∃ progress' sc' cs',
      Talk t (x.relay (.read now d)) progress' sc' cs' ∧
        remaining t progress' sc' cs' < remaining t progress sc cs := by
  cases d with
  | toClient => exact h.clientTurn ht now hsome
  | toServer => exact h.serverTurn ht now hsome

/-- The two stations are talking, and at most so many frames are still to be read. -/
def Within (t : Topic κ) (n : Nat) (x : Pair κ) : Prop :=
  ∃ progress sc cs, Talk t x progress sc cs ∧ remaining t progress sc cs ≤ n

namespace Within

variable {t : Topic κ} {n : Nat} {x : Pair κ}

theorem server (h : Within t n x) : Station.Working t.serverConfig x.server := by
  obtain ⟨progress, sc, cs, htalk, -⟩ := h
  exact htalk.server

theorem client (h : Within t n x) : Station.Working t.clientConfig x.client := by
  obtain ⟨progress, sc, cs, htalk, -⟩ := h
  exact htalk.client

theorem mono (h : Within t n x) {m : Nat} (hm : n ≤ m) : Within t m x := by
  obtain ⟨progress, sc, cs, htalk, hn⟩ := h
  exact ⟨progress, sc, cs, htalk, Nat.le_trans hn hm⟩

theorem carry (h : Within t n x) (d : Direction) (k : Nat) : Within t n (x.relay (.carry d k)) := by
  obtain ⟨progress, sc, cs, htalk, hn⟩ := h
  cases d with
  | toClient => exact ⟨progress, sc, cs, htalk.toClient k, hn⟩
  | toServer => exact ⟨progress, sc, cs, htalk.toServer k, hn⟩

theorem flush (h : Within t n x) (d : Direction) : Within t n (x.relay (.flush d)) := by
  obtain ⟨progress, sc, cs, htalk, hn⟩ := h
  refine ⟨progress, sc, cs, ?_, hn⟩
  cases d with
  | toClient =>
    have hflushed := htalk.clientEmit (Endpoint.flushed_emits htalk.client.accounts) rfl
    rwa [List.append_nil] at hflushed
  | toServer =>
    have hflushed := htalk.serverEmit (Endpoint.flushed_emits htalk.server.accounts) rfl
    rwa [List.append_nil] at hflushed

/-- A frame that is read is not still to be read. -/
theorem read (h : Within t n x) (ht : t.Shared) (now : Nat) {d : Direction}
    (hsome : x.inbound d ≠ []) : ∃ m < n, Within t m (x.relay (.read now d)) := by
  obtain ⟨progress, sc, cs, htalk, hn⟩ := h
  obtain ⟨progress', sc', cs', htalk', hless⟩ := htalk.read ht now hsome
  exact ⟨_, Nat.lt_of_lt_of_le hless hn, progress', sc', cs', htalk', Nat.le_refl _⟩

theorem reads (h : Within t n x) (ht : t.Shared) (now k : Nat) (d : Direction) :
    Within t n (x.relayAll (List.replicate k (.read now d))) := by
  induction k generalizing x with
  | zero => exact h
  | succ k ih =>
    refine ih ?_
    by_cases hinbound : x.inbound d = []
    · rw [relay_read_of_nil now hinbound]
      exact h
    · obtain ⟨m, hm, hwithin⟩ := h.read ht now hinbound
      exact hwithin.mono (Nat.le_of_lt hm)

theorem half (h : Within t n x) (ht : t.Shared) (now : Nat) (d : Direction) :
    Within t n (half now x d) := by
  rw [half_eq]
  exact ((h.carry d _).reads ht now _ d).flush d

/-- Half a round reads at least one frame, if there is one. -/
theorem half_reads (h : Within t n x) (ht : t.Shared) (now : Nat) {d : Direction}
    (hsome : x.inbound d ++ x.outbound d ≠ []) :
    ∃ m < n, Within t m (Exchange.half now x d) := by
  rw [half_eq]
  have hgiven := inbound_carry x d
  obtain ⟨m, hm, hwithin⟩ := (h.carry d (x.outbound d).length).read ht now
    (by rw [hgiven]; exact hsome)
  obtain ⟨k, hk⟩ : ∃ k, (x.inbound d ++ x.outbound d).length = k + 1 :=
    Nat.exists_eq_succ_of_ne_zero (Nat.ne_of_gt (List.length_pos_iff.mpr hsome))
  refine ⟨m, hm, ?_⟩
  rw [hgiven, hk]
  exact (hwithin.reads ht now k d).flush d

end Within

/-! ## Progress -/

/-- When nothing lies before a station or is on the way to it, its half is a flush. -/
theorem half_of_nil (now : Nat) {x : Pair κ} {d : Direction} (hinbound : x.inbound d = [])
    (houtbound : x.outbound d = []) : half now x d = x.relay (.flush d) := by
  have hgiven : x.relay (.carry d 0) = x := by cases d <;> rfl
  rw [half_eq, houtbound, List.length_nil, hgiven, hinbound]
  rfl

/-- A round reads a frame, or it is the server that has something to send and now puts it onto the
wire, or nothing was on its way. -/
theorem sweep_reads_or_sends {t : Topic κ} (ht : t.Shared) (now : Nat) {n : Nat} {x : Pair κ}
    (h : Within t n x) :
    (∃ m < n, Within t m (sweep now x)) ∨
      (Within t n (sweep now x) ∧ (sweep now x).outbound .toClient ≠ []) ∨
      x.Quiet := by
  have hwithin := h.half ht now .toClient
  by_cases hfirst : x.inbound .toClient ++ x.outbound .toClient = []
  · obtain ⟨hinbound, houtbound⟩ := List.append_eq_nil_iff.mp hfirst
    have hhalf := half_of_nil now hinbound houtbound
    by_cases hsecond : (half now x .toClient).inbound .toServer ++
        (half now x .toClient).outbound .toServer = []
    · obtain ⟨hserver, hclient⟩ := List.append_eq_nil_iff.mp hsecond
      have hother := half_of_nil now hserver hclient
      rw [hhalf] at hserver hclient hother
      obtain ⟨hclientOut, hclientQueue⟩ := h.client.outbound_flushed hclient
      by_cases hsends : x.server.endpoint.flushed.link.outbound = []
      · obtain ⟨hserverOut, hserverQueue⟩ := h.server.outbound_flushed hsends
        exact Or.inr (Or.inr ⟨⟨hserver, hserverOut, hserverQueue⟩,
          ⟨hinbound, hclientOut, hclientQueue⟩⟩)
      · refine Or.inr (Or.inl ⟨hwithin.half ht now .toServer, ?_⟩)
        rw [sweep, hhalf, hother]
        exact hsends
    · exact Or.inl (hwithin.half_reads ht now hsecond)
  · obtain ⟨m, hm, hless⟩ := h.half_reads ht now hfirst
    exact Or.inl ⟨m, hm, hless.half ht now .toServer⟩

/-- Two stations that are talking come to an end, round by round. -/
theorem exists_rounds_quiet {t : Topic κ} (ht : t.Shared) (now n : Nat) {x : Pair κ}
    (h : Within t n x) (r : Report) : ∃ k, (rounds now k x r).1.Quiet := by
  induction n using Nat.strongRecOn generalizing x r with
  | ind n ih =>
    obtain ⟨r₁, hround⟩ := round_eq now h.server h.client r
    rcases sweep_reads_or_sends ht now h with ⟨m, hm, hless⟩ | ⟨hsame, hout⟩ | hquiet
    · obtain ⟨k, hk⟩ := ih m hm hless r₁
      refine ⟨k + 1, ?_⟩
      rw [rounds, hround]
      exact hk
    · -- The next round begins with the client reading what the server has sent.
      obtain ⟨r₂, hnext⟩ := round_eq now hsame.server hsame.client r₁
      obtain ⟨m, hm, hless⟩ := hsame.half_reads ht now
        (fun hnil => hout (List.append_eq_nil_iff.mp hnil).2)
      obtain ⟨k, hk⟩ := ih m hm (hless.half ht now .toServer) r₂
      refine ⟨k + 2, ?_⟩
      rw [rounds, hround]
      simp only
      rw [rounds, hnext]
      exact hk
    · exact ⟨0, hquiet⟩

/-- Rounds are lossless steps. -/
theorem rounds_relays {t : Topic κ} (ht : t.Shared) (now k : Nat) {n : Nat} {x : Pair κ}
    (h : Within t n x) (r : Report) : ∃ relays, (rounds now k x r).1 = x.relayAll relays := by
  induction k generalizing x r with
  | zero => exact ⟨[], rfl⟩
  | succ k ih =>
    obtain ⟨r₁, hround⟩ := round_eq now h.server h.client r
    obtain ⟨relays, hrelays⟩ := ih ((h.half ht now .toClient).half ht now .toServer) r₁
    obtain ⟨first, hfirst⟩ := half_relays now x .toClient
    obtain ⟨second, hsecond⟩ := half_relays now (half now x .toClient) .toServer
    refine ⟨first ++ (second ++ relays), ?_⟩
    rw [rounds, hround, relayAll_append, relayAll_append, ← hfirst, ← hsecond]
    exact hrelays

end Exchange

end RomCast
