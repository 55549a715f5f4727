import RomCast.Proofs.Client.History
import RomCast.Proofs.Exchange.Rounds
import RomCast.Proofs.Server.History
import RomCast.Proofs.Station.Subsiding

set_option autoImplicit false

/-!
# Every exchange comes to rest

Whatever lies on the wires between a server and a client, each of them answers it with less than it
was, and what a server sends weighs at most as much as a question.  So after one round only the
server's answers are left (`round_echoes`), and the client's answers to them set off nothing any
more: after two rounds nothing is on its way, and nothing is sent again (`silent_after_rounds`).
-/

namespace RomCast

/-- A client answers a signal with a request. -/
theorem Client.answer_subsides {κ : Type} :
    Station.Subsides 3 (Client.answer : Subscriptions κ → Message → List Bytes) := by
  intro role message packet hpacket
  unfold Client.answer at hpacket
  cases hbody : message.body with
  | signal =>
    rw [hbody] at hpacket
    simp only at hpacket
    split at hpacket
    · rw [List.mem_singleton] at hpacket
      rw [hpacket]
      exact ⟨Nat.le_refl 3, _, Message.decode_update _ _, Nat.lt_succ_self 2⟩
    · cases hpacket
  | update =>
    rw [hbody] at hpacket
    cases hpacket
  | data f =>
    rw [hbody] at hpacket
    cases hpacket

/-- A server answers a request with fragments. -/
theorem Server.reply_subsides {σ : Type} [ContentSource σ] :
    Station.Subsides 2 (Server.reply : Registry σ → Message → List Bytes) := by
  intro contents message packet hpacket
  obtain ⟨hbody, name, hash, f, hdecode⟩ := Server.mem_reply hpacket
  rw [hbody]
  exact ⟨Nat.le_refl 2, _, hdecode, Nat.zero_lt_succ 1⟩

namespace Exchange

variable {σ κ : Type} [ContentSource σ] {queue queue' : Nat} {x : Exchange MemoryLink σ κ}

/-- Both have flushed their links. -/
def flushed (x : Exchange MemoryLink σ κ) : Exchange MemoryLink σ κ where
  server := (Station.onEndpoint (Endpoint.flush : Action LinkError Endpoint.OnMemory Unit)).state
    x.server
  client := (Station.onEndpoint (Endpoint.flush : Action LinkError Endpoint.OnMemory Unit)).state
    x.client

/-- Rounds over channels that do nothing, one at each of these times. -/
def roundsAt : List Nat → Exchange MemoryLink σ κ → Report → Exchange MemoryLink σ κ × Report
  | [], x, r => (x, r)
  | now :: times, x, r =>
      let (x, r) := round now lossless x r
      roundsAt times x r

/-! ## One round -/

/-- What is left after a round: the server's answers, which weigh less than this. -/
structure Echoes (queue queue' n : Nat) (x : Exchange MemoryLink σ κ) : Prop where
  server : Station.Flushed queue x.server
  client : Station.Flushed queue' x.client
  serverInbound : x.server.endpoint.link.inbound = []
  clientInbound : x.client.endpoint.link.inbound = []
  clientOutbound : x.client.endpoint.link.outbound = []
  answers : ∃ out : List Outgoing,
    x.server.endpoint.link.outbound = out.map Outgoing.frame ∧ ∀ o ∈ out, o.weight < n

/-- What one station has sent is read by another one, which answers with less. -/
theorem pass_subsides {ρ ρ' : Type} {change : Message → ρ' → ρ'}
    {answer : ρ' → Message → List Bytes} {handler : Station.Handler MemoryLink ρ'} {top : Nat}
    (hplays : Station.Plays change answer handler) (htop : 0 < top)
    (hsubsides : Station.Subsides top answer) (d : Direction) (sender : Station MemoryLink ρ)
    {receiver : Station MemoryLink ρ'} (h : Station.Flushed queue receiver) (n : Nat)
    (hframes : ∀ frame ∈ receiver.endpoint.link.inbound ++ sender.endpoint.link.outbound,
      Station.weight receiver.endpoint.config frame ≤ n) (r : Report) :
    ∃ (receiver' : Station MemoryLink ρ') (out : List Outgoing) (r' : Report),
      pass lossless d sender receiver (Station.poll handler) r =
        (relieved sender.endpoint.link.outbound.length sender, receiver', r') ∧
      Station.Flushed queue receiver' ∧ receiver'.endpoint.link.inbound = [] ∧
      receiver'.endpoint.link.outbound =
        receiver.endpoint.link.outbound ++ out.map Outgoing.frame ∧
      ∀ o ∈ out, o.weight < top ∧ o.weight < n := by
  have hgiven := h.give sender.endpoint.link.outbound
  obtain ⟨receiver', out, hpoll, hflushed, hinbound, houtbound, hlight⟩ :=
    hgiven.poll hplays htop hsubsides n (by rw [Station.give_eq]; exact hframes)
  obtain ⟨r', hpass⟩ := pass_of_poll d sender receiver hpoll r
  rw [Station.give_eq] at houtbound
  exact ⟨receiver', out, r', hpass, hflushed, hinbound, houtbound, hlight⟩

theorem relieved_flushed {ρ : Type} {s : Station MemoryLink ρ} (h : Station.Flushed queue s) :
    Station.Flushed queue (relieved s.endpoint.link.outbound.length s) ∧
      (relieved s.endpoint.link.outbound.length s).endpoint.link.outbound = [] :=
  ⟨h.congr rfl rfl rfl, List.drop_length⟩

/-- After a round only the server's answers are left.  They weigh less than two, and also less than
the heaviest frame that the server may have read: one that was on its way to it, or an answer to
what was on its way to the client. -/
theorem round_echoes (hserver : Station.Flushed queue x.server)
    (hclient : Station.Flushed queue' x.client) (n m : Nat) (hnm : n ≤ m + 1)
    (htoClient : ∀ frame ∈ x.client.endpoint.link.inbound ++ x.server.endpoint.link.outbound,
      Station.weight x.client.endpoint.config frame ≤ n)
    (htoServer : ∀ frame ∈ x.server.endpoint.link.inbound ++ x.client.endpoint.link.outbound,
      Station.weight x.server.endpoint.config frame ≤ m) (now : Nat) (r : Report) :
    ∃ x' r', round now lossless x r = (x', r') ∧ Echoes queue queue' (min 2 m) x' := by
  obtain ⟨client, asked, r₁, hfirst, hclient₁, hclientInbound, hclientOutbound, hasked⟩ :=
    pass_subsides (Client.handler_plays now) (by decide) Client.answer_subsides .toClient x.server
      hclient n htoClient r
  obtain ⟨hrelieved, hnothing⟩ := relieved_flushed hserver
  obtain ⟨server, out, r₂, hsecond, hserver₂, hserverInbound, hserverOutbound, hlight⟩ :=
    pass_subsides (Server.handler_replies now) (by decide) Server.reply_subsides .toServer client
      hrelieved m (r := r₁) <| by
        intro frame hframe
        rw [hclientOutbound, ← List.append_assoc, List.mem_append] at hframe
        rcases hframe with hbefore | hanswer
        · exact htoServer frame hbefore
        · obtain ⟨o, ho, rfl⟩ := List.mem_map.mp hanswer
          have hless := (hasked o ho).2
          exact Nat.le_trans (Station.weight_frame_le _ o) (by omega)
  obtain ⟨hclient₂, hclientDone⟩ := relieved_flushed hclient₁
  refine ⟨⟨server, relieved client.endpoint.link.outbound.length client⟩,
    { r₂ with rounds := r₂.rounds + 1 }, ?_, hserver₂, hclient₂, hserverInbound, hclientInbound,
    hclientDone, out, ?_, ?_⟩
  · unfold round
    rw [show (Client.poll now : Action LinkError (Client MemoryLink κ) Nat) =
      Station.poll (Client.handler now) from rfl, hfirst]
    simp only
    rw [show (Server.poll now : Action LinkError (Server MemoryLink σ) Nat) =
      Station.poll (Server.handler now) from rfl, hsecond]
  · rw [hserverOutbound, hnothing, List.nil_append]
  · intro o ho
    exact Nat.lt_min.mpr (hlight o ho)

/-- What is left after another round weighs less by two: the client answers it with less, and the
server the client's answers. -/
theorem Echoes.round {n : Nat} (h : Echoes queue queue' n x) (now : Nat) (r : Report) :
    ∃ x' r', Exchange.round now lossless x r = (x', r') ∧ Echoes queue queue' (n - 2) x' := by
  obtain ⟨out, hout, hlight⟩ := h.answers
  obtain ⟨x', r', hround, hechoes⟩ := round_echoes h.server h.client (n - 1) (n - 2) (by omega)
    (by
      intro frame hframe
      rw [h.clientInbound, hout, List.nil_append] at hframe
      obtain ⟨o, ho, rfl⟩ := List.mem_map.mp hframe
      have hless := hlight o ho
      exact Nat.le_trans (Station.weight_frame_le _ o) (by omega))
    (by
      intro frame hframe
      rw [h.serverInbound, h.clientOutbound] at hframe
      cases hframe) now r
  refine ⟨x', r', hround, ?_⟩
  obtain ⟨out', hout', hlight'⟩ := hechoes.answers
  exact ⟨hechoes.server, hechoes.client, hechoes.serverInbound, hechoes.clientInbound,
    hechoes.clientOutbound, out', hout', fun o ho => (Nat.lt_min.mp (hlight' o ho)).2⟩

omit [ContentSource σ] in
/-- What weighs less than nothing is nothing. -/
theorem Echoes.silent (h : Echoes queue queue' 0 x) : x.server.Silent ∧ x.client.Silent := by
  obtain ⟨out, hout, hlight⟩ := h.answers
  have hnone : out = [] := List.eq_nil_iff_forall_not_mem.mpr fun o ho =>
    absurd (hlight o ho) (Nat.not_lt_zero _)
  rw [hnone] at hout
  exact ⟨⟨h.serverInbound, hout, h.server.submitted⟩,
    ⟨h.clientInbound, h.clientOutbound, h.client.submitted⟩⟩

/-! ## Two rounds, and more -/

/-- Where nothing is left, nothing is sent any more. -/
theorem Echoes.roundsAt (times : List Nat) (h : Echoes queue queue' 0 x) (r : Report) :
    Echoes queue queue' 0 (Exchange.roundsAt times x r).1 := by
  induction times generalizing x r with
  | nil => exact h
  | cons now times ih =>
    obtain ⟨x', r', hround, hechoes⟩ := h.round now r
    rw [Exchange.roundsAt, hround]
    exact ih hechoes r'

omit [ContentSource σ] in
theorem flushed_server (h : Station.Intact queue x.server)
    (hbatch : x.server.endpoint.link.batch = none) : Station.Flushed queue x.flushed.server :=
  Station.flushed_flush h hbatch

omit [ContentSource σ] in
theorem flushed_client (h : Station.Intact queue x.client)
    (hbatch : x.client.endpoint.link.batch = none) : Station.Flushed queue x.flushed.client :=
  Station.flushed_flush h hbatch

/-- The first round leaves the server's answers, and the second one nothing. -/
theorem two_rounds_echo (hserver : Station.Intact queue x.server)
    (hclient : Station.Intact queue' x.client) (hserverBatch : x.server.endpoint.link.batch = none)
    (hclientBatch : x.client.endpoint.link.batch = none) (first second : Nat) (r : Report) :
    ∃ x₁ r₁ x₂ r₂, Exchange.round first lossless x.flushed r = (x₁, r₁) ∧
      Exchange.round second lossless x₁ r₁ = (x₂, r₂) ∧ Echoes queue queue' 0 x₂ := by
  obtain ⟨x₁, r₁, hfirst, hechoes⟩ := round_echoes (flushed_server hserver hserverBatch)
    (flushed_client hclient hclientBatch) 3 3 (by omega) (fun _ _ => Station.weight_le _ _)
    (fun _ _ => Station.weight_le _ _) first r
  obtain ⟨x₂, r₂, hsecond, hnone⟩ := hechoes.round second r₁
  exact ⟨x₁, r₁, x₂, r₂, hfirst, hsecond, hnone⟩

/-- Take a server and a client between any two operations (`Server.Sound.run`, `Client.intact_run`),
whatever they have sent or still have to send, whatever else lies before them, and whatever they
know of each other.  When both have flushed their links, two rounds leave nothing on its way, and so
do all later ones. -/
theorem silent_after_rounds (hserver : Station.Intact queue x.server)
    (hclient : Station.Intact queue' x.client) (hserverBatch : x.server.endpoint.link.batch = none)
    (hclientBatch : x.client.endpoint.link.batch = none) (first second : Nat) (later : List Nat)
    (r : Report) :
    let x' := (roundsAt (first :: second :: later) x.flushed r).1
    x'.server.Silent ∧ x'.client.Silent := by
  obtain ⟨x₁, r₁, x₂, r₂, hfirst, hsecond, hnone⟩ :=
    two_rounds_echo hserver hclient hserverBatch hclientBatch first second r
  have hlater := hnone.roundsAt later r₂
  rw [roundsAt, hfirst]
  simp only
  rw [roundsAt, hsecond]
  exact hlater.silent

namespace Forged

def rom : ModuleName := ⟨"rom", ModuleName.valid_rom⟩

/-- An endpoint with one buffer that knows no addresses. -/
def setup : Setup where
  mac := Mac.zero
  queue := 1
  batch := none
  config := {}

/-- A signal or a request that nobody has sent. -/
def frame (kind : PacketKind) : Bytes :=
  ({ sourceMac := Mac.zero, targetMac := Mac.broadcast, source := Ipv4Address.ofBytes [10, 0, 0, 9],
     target := Ipv4Address.broadcast, identification := 1, port := Endpoint.defaultPort,
     withChecksum := true } : Endpoint.Addressing).frame (controlPacket kind rom ContentHash.zero)

def serverHistory : List Server.Incident :=
  [.register rom true (some [1, 2, 3]), .endpoint (.deliver (frame .update))]

def clientHistory : List (Client.Incident Unit) :=
  [.subscribe fun s => { s with replicas := s.replicas.insert rom (Replica.new rom none) },
    .endpoint (.deliver (frame .signal))]

/-- A server before which a request lies, and a client before which a signal lies. -/
def exchange : Exchange MemoryLink Publication Unit where
  server := Server.afterAll (Server.new setup.endpoint) serverHistory
  client := Client.afterAll (Client.new setup.endpoint 1024) clientHistory

end Forged

/-- A signal and a request that nobody has sent set off no more than two rounds. -/
theorem silent_after_forged :
    Forged.exchange.client.endpoint.link.inbound = [Forged.frame .signal] ∧
      Forged.exchange.server.endpoint.link.inbound = [Forged.frame .update] ∧
      let x := (roundsAt [0, 1] Forged.exchange.flushed {}).1
      x.server.Silent ∧ x.client.Silent :=
  ⟨rfl, rfl, silent_after_rounds
    ((Server.sound_new Forged.setup).run Forged.serverHistory).intact
    (Client.intact_run (Client.intact_new Forged.setup 1024) Forged.clientHistory) rfl rfl
    0 1 [] {}⟩

/-! ## Running until nothing is sent -/

omit [ContentSource σ] in
theorem Echoes.atRest (h : Echoes queue queue' 0 x) : x.atRest = true := by
  obtain ⟨hserver, hclient⟩ := h.silent
  have hnothing : (takeSent x.server).1 = [] ∧ (takeSent x.client).1 = [] :=
    ⟨hserver.outbound, hclient.outbound⟩
  rw [Exchange.atRest, hnothing.1, hnothing.2]
  rfl

theorem runFrom_of_atRest (now n : Nat) (channel : Direction → Channel) (h : x.atRest = true)
    (r : Report) : runFrom now channel n x r = (x, r) := by
  cases n with
  | zero => rfl
  | succ n => rw [runFrom, if_pos h]

/-- An exchange that may run for two rounds comes to rest. -/
theorem run_atRest (hserver : Station.Intact queue x.server)
    (hclient : Station.Intact queue' x.client) (hserverBatch : x.server.endpoint.link.batch = none)
    (hclientBatch : x.client.endpoint.link.batch = none) (now n : Nat) :
    (run now lossless (n + 2) x.flushed).1.atRest = true := by
  obtain ⟨x₁, r₁, x₂, r₂, hfirst, hsecond, hnone⟩ :=
    two_rounds_echo hserver hclient hserverBatch hclientBatch now now {}
  rw [run, runFrom]
  split
  · assumption
  · rw [hfirst]
    simp only
    rw [runFrom]
    split
    · assumption
    · rw [hsecond]
      simp only
      rw [runFrom_of_atRest now n lossless hnone.atRest]
      exact hnone.atRest

end Exchange

end RomCast
