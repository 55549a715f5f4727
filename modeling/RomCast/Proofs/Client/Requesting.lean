import Mathlib.Data.List.Basic
import RomCast.Proofs.Client.History
import RomCast.Proofs.Station.Sending

set_option autoImplicit false

/-!
# What a client sends while it is polled

A client that is polled asks for a content once for every signal that it reads for one of its
modules: the requests go out in the order of the signals, each for the module and the hash that its
signal names (`polled_requests_signalled`).  Nothing else makes it send a datagram, and beside its
requests there are only answers to ARP questions and the questions that had to be asked.
-/

namespace RomCast

/-- The message in a datagram. -/
def Outgoing.message? (o : Outgoing) : Option Message :=
  o.payload?.bind fun payload => (Message.decode payload).toOption

namespace Client

variable {κ : Type}

/-! ## One request -/

/-- A client's request goes out in one datagram. -/
theorem request_asks (now : Nat) (name : ModuleName) (hash : ContentHash) (e : Endpoint.OnMemory)
    (h : e.link.pool.Accounts []) (hflows : e.link.Flows) :
    ∃ e' a fits, (request now name hash : Action FrameError Endpoint.OnMemory Unit) e = .ok () e' ∧
      e.Emits e' (e.questions ++ [.datagram a (controlPacket .update name hash) fits]) := by
  have hsize : Header.size PacketHeader = 100 := rfl
  obtain ⟨e₁, a, fits, hsent, hemits, -⟩ := Endpoint.transmit_asks now 100
    ((encodeControl_fills .update name hash).within 100)
    (Nat.le_of_eq (length_controlPacket .update name hash)) (by decide) e h hflows
  refine ⟨e₁.flushed, a, fits, ?_, hemits.flush⟩
  rw [request, hsize, Action.bind_apply, hsent]
  rfl

/-- A client answers a signal for one of its modules with a request, and nothing else with
anything. -/
theorem handler_conveys (now : Nat) :
    Station.Conveys deliver answer (handler (L := MemoryLink) (κ := κ) now) := by
  intro message e s h hflows
  have hnothing : ∀ state : Endpoint.OnMemory × Subscriptions κ,
      state = (e, deliver message s) → ∃ e' datagrams, state = (e', deliver message s) ∧
        e.Emits e' ((if datagrams = [] then [] else e.questions) ++ datagrams) ∧
        datagrams.map Outgoing.payload? = ([] : List Bytes).map some :=
    fun state hstate => ⟨e, [], hstate, Endpoint.emits_refl h, rfl⟩
  have hdeliver := handler_deliver now message e s
  unfold handler at hdeliver ⊢
  rw [Action.state_bind_of_ok (Action.get_apply (e, s))] at hdeliver ⊢
  unfold answer
  by_cases hmodule : s.replicas.contains message.module = true
  · simp only [hmodule, if_true] at hdeliver ⊢
    cases hbody : message.body with
    | signal =>
      obtain ⟨e', a, fits, hrequest, hemits⟩ :=
        request_asks now message.module message.contentHash e h hflows
      refine ⟨e', [.datagram a _ fits], ?_, hemits, rfl⟩
      simp only [hbody] at hdeliver ⊢
      rw [Action.state_onFirst] at hdeliver ⊢
      exact Prod.ext (Action.state_of_ok hrequest) hdeliver
    | update =>
      simp only [hbody] at hdeliver ⊢
      exact hnothing _ (Prod.ext rfl hdeliver)
    | data f =>
      simp only [hbody] at hdeliver ⊢
      refine hnothing _ (Prod.ext ?_ hdeliver)
      rw [Action.state_onSecond]
  · simp only [hmodule, if_false, Bool.false_eq_true] at hdeliver ⊢
    cases message.body <;> exact hnothing _ (Prod.ext rfl hdeliver)

/-- No packet changes which modules a client has, and so none changes what it answers. -/
theorem answer_deliver (message : Message) (s : Subscriptions κ) :
    answer (deliver message s) = answer s := by
  have hcontains : ∀ name,
      (deliver message s).replicas.contains name = s.replicas.contains name := by
    intro name
    unfold deliver
    cases message.body with
    | signal => rfl
    | update => rfl
    | data f =>
      unfold acceptFragment
      cases hfind : s.replicas.find? message.module with
      | none => rfl
      | some replica =>
        simp only [Registry.contains]
        by_cases hname : name = message.module
        · rw [hname, Registry.find?_insert_self, hfind]
          rfl
        · rw [Registry.find?_insert_of_ne _ hname]
  funext message'
  unfold answer
  rw [hcontains]

/-! ## Polling -/

/-- The module and the hash that a frame signals, when it is a signal for one of the client's
modules. -/
def signalled? (c : Client MemoryLink κ) (frame : Bytes) : Option (ModuleName × ContentHash) :=
  match Station.packetIn? c.endpoint.config (frame.take bufferSize) with
  | some ⟨name, hash, .signal⟩ => if c.role.replicas.contains name then some (name, hash) else none
  | _ => none

/-- The request for a module's content of some hash. -/
def updateOf (signal : ModuleName × ContentHash) : Message := ⟨signal.1, signal.2, .update⟩

theorem answersIn_eq (c : Client MemoryLink κ) (frame : Bytes) :
    Station.answersIn c.endpoint.config (answer c.role) frame =
      (c.signalled? frame).toList.map fun signal => controlPacket .update signal.1 signal.2 := by
  unfold Station.answersIn signalled? answer
  rcases Station.packetIn? c.endpoint.config (frame.take bufferSize) with
    _ | ⟨name, hash, _ | _ | f⟩
  · rfl
  · simp only [Option.map_some, Option.getD_some]
    split <;> rfl
  · rfl
  · rfl

/-- What a client sends in the turn in which it reads a frame. -/
structure Asks (c s : Client MemoryLink κ) (frame : Bytes) (t : Station.Sent) : Prop where
  /-- The packet that is handled is the one in the frame. -/
  read : Station.packet? s = Station.packetIn? c.endpoint.config (frame.take bufferSize)
  replies : Endpoint.Answers (frame.take bufferSize) t.replies
  /-- A question goes out only before a request, and only if nobody has asked yet. -/
  questions : t.questions =
    if t.datagrams = [] then [] else (Station.afterRead s).endpoint.questions
  /-- One request for a signal, and no datagram for anything else. -/
  requests : t.datagrams.map Outgoing.message? =
    (c.signalled? frame).toList.map fun signal => some (updateOf signal)

/-- What polling a client comes to: all inbound frames are read, what was submitted is what was sent
turn by turn, and the datagrams among it are one request for every signal, in order. -/
structure Polled (now : Nat) (c c' : Client MemoryLink κ) (turns : List Station.Sent) : Prop where
  result : Client.poll now c = .ok c.endpoint.link.inbound.length c'
  inbound : c'.endpoint.link.inbound = []
  length_eq : turns.length = c.endpoint.link.inbound.length
  pipeline : c'.endpoint.link.pipeline =
    c.endpoint.link.pipeline ++ turns.flatMap Station.Sent.frames
  requests : (turns.flatMap Station.Sent.datagrams).map Outgoing.message? =
    (c.endpoint.link.inbound.filterMap c.signalled?).map fun signal => some (updateOf signal)
  asks : ∀ (k : Nat) frame t, c.endpoint.link.inbound[k]? = some frame → turns[k]? = some t →
    Asks c (Station.afterTurns (handler now) k c) frame t

/-- Datagrams with requests in them. -/
theorem messages_of_payloads {datagrams : List Outgoing} {signals : List (ModuleName × ContentHash)}
    (h : datagrams.map Outgoing.payload? =
      (signals.map fun signal => controlPacket .update signal.1 signal.2).map some) :
    datagrams.map Outgoing.message? = signals.map fun signal => some (updateOf signal) := by
  have hmessage : Outgoing.message? =
      (fun payload? => payload?.bind fun payload => (Message.decode payload).toOption) ∘
        Outgoing.payload? := rfl
  rw [hmessage, ← List.map_map, h, List.map_map, List.map_map]
  refine List.map_congr_left fun signal _ => ?_
  simp only [Function.comp_apply, Option.bind_some, Message.decode_update]
  rfl

/-- Whatever has happened to a client, when it is polled on a link that has buffers and does not
stand still, it asks exactly once for every signal for one of its modules that it reads. -/
theorem polled_requests_signalled (setup : Exchange.Setup) (hqueue : 0 < setup.queue) (limit : Nat)
    (history : List (Incident κ)) (now : Nat) :
    let c := afterAll (Client.new setup.endpoint limit : Client MemoryLink κ) history
    c.endpoint.link.batch ≠ some 0 → ∃ c' turns, Polled now c c' turns := by
  intro c hbatch
  have hintact : Station.Intact setup.queue c := intact_run (intact_new setup limit) history
  have hflows : c.endpoint.link.Flows := ⟨hintact.buffers ▸ hqueue, hbatch⟩
  obtain ⟨c', turns, hpolled⟩ := Station.poll_sends (handler_plays now) (handler_conveys now)
    answer_deliver hintact hflows
  refine ⟨c', turns, hpolled.result, hpolled.inbound, hpolled.length_eq, hpolled.pipeline, ?_, ?_⟩
  · have hanswers : c.endpoint.link.inbound.flatMap
        (Station.answersIn c.endpoint.config (answer c.role)) =
          (c.endpoint.link.inbound.filterMap c.signalled?).map fun signal =>
            controlPacket .update signal.1 signal.2 := by
      rw [funext (answersIn_eq c), List.filterMap_eq_flatMap_toList, List.map_flatMap]
    exact messages_of_payloads (hpolled.carried.trans (congrArg _ hanswers))
  · intro k frame t hframe ht
    have hsends := hpolled.sends k frame t hframe ht
    refine ⟨hsends.read, hsends.replies, hsends.questions, messages_of_payloads ?_⟩
    rw [hsends.carried, answersIn_eq]

namespace TwoSignals

def rom : ModuleName := ⟨"rom", ModuleName.valid_rom⟩

def other : ModuleName := ⟨"other", by decide⟩

def older : ContentHash := Octets.fill 32 1

def newer : ContentHash := Octets.fill 32 2

/-- A client that knows its server's address but not its hardware address, with one buffer. -/
def setup : Exchange.Setup where
  mac := Mac.zero
  queue := 1
  batch := some 1
  config := { target := some (Ipv4Address.ofBytes [10, 0, 0, 2]) }

/-- The server's signal for a module. -/
def signal (name : ModuleName) (hash : ContentHash) : Bytes :=
  ({ sourceMac := Mac.zero, targetMac := Mac.broadcast, source := Ipv4Address.ofBytes [10, 0, 0, 3],
     target := Ipv4Address.broadcast, identification := 1, port := Endpoint.defaultPort,
     withChecksum := true } : Endpoint.Addressing).frame (controlPacket .signal name hash)

/-- One module is replicated; two signals come for it, and between them one for another module. -/
def history : List (Incident Unit) :=
  [.subscribe fun s => { s with replicas := s.replicas.insert rom (Replica.new rom none) },
    .endpoint (.deliver (signal rom older)), .endpoint (.deliver (signal other older)),
    .endpoint (.deliver (signal rom newer))]

/-- The client before it is polled. -/
def client : Client MemoryLink Unit := afterAll (Client.new setup.endpoint 1024) history

end TwoSignals

/-- The module that is replicated is asked for twice, with the hashes that were signalled. -/
theorem polled_requests_twice :
    ∃ c' turns, Polled 0 TwoSignals.client c' turns ∧ turns.length = 3 ∧
      (turns.flatMap Station.Sent.datagrams).map Outgoing.message? =
        [some ⟨TwoSignals.rom, TwoSignals.older, .update⟩,
          some ⟨TwoSignals.rom, TwoSignals.newer, .update⟩] := by
  obtain ⟨c', turns, hpolled⟩ := polled_requests_signalled (κ := Unit) TwoSignals.setup (by decide)
    1024 TwoSignals.history 0 (by decide)
  have hsignals : TwoSignals.client.endpoint.link.inbound.filterMap TwoSignals.client.signalled? =
      [(TwoSignals.rom, TwoSignals.older), (TwoSignals.rom, TwoSignals.newer)] := by
    decide +kernel
  have hrequests := hpolled.requests
  rw [show afterAll (Client.new TwoSignals.setup.endpoint 1024) TwoSignals.history =
    TwoSignals.client from rfl, hsignals] at hrequests
  exact ⟨c', turns, hpolled, hpolled.length_eq, hrequests⟩

end Client

end RomCast
