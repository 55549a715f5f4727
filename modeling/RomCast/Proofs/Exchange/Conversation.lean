import RomCast.Proofs.Client.Request
import RomCast.Proofs.Client.Transfer
import RomCast.Proofs.Server.Stream
import RomCast.Proofs.Station.Working

set_option autoImplicit false

/-!
# A conversation about one content

A signal is answered by a request, and the request by the content's fragments.  Whatever ARP traffic
goes on beside them, and in whatever steps frames are carried over and read, what is on its way
between the two stations is what the conversation has come to (`Talk`); and every frame that is read
brings the conversation nearer to its end (`Talk.clientTurn`, `Talk.serverTurn`).
-/

namespace RomCast.Exchange

variable {κ : Type}

/-- A server and a client on links in memory. -/
abbrev Pair (κ : Type) : Type := Exchange MemoryLink Publication κ

/-! ## Lossless delivery -/

/-- A step of two stations between which nothing is lost and nothing overtakes. -/
inductive Relay where
  /-- So many frames that the server has sent are carried over to the client. -/
  | toClient (n : Nat)
  /-- So many frames that the client has sent are carried over to the server. -/
  | toServer (n : Nat)
  | serverTurn (now : Nat)
  | clientTurn (now : Nat)
  | serverChore (chore : Endpoint.Chore)
  | clientChore (chore : Endpoint.Chore)

/-- A station from whose wire the oldest frames have been taken. -/
def relieved {ρ : Type} (n : Nat) (s : Station MemoryLink ρ) : Station MemoryLink ρ :=
  { s with endpoint := { s.endpoint with link := { s.endpoint.link with
      outbound := s.endpoint.link.outbound.drop n } } }

/-- One step. -/
def relay (x : Pair κ) : Relay → Pair κ
  | .toClient n =>
      { server := relieved n x.server
        client := give (x.server.endpoint.link.outbound.take n) x.client }
  | .toServer n =>
      { server := give (x.client.endpoint.link.outbound.take n) x.server
        client := relieved n x.client }
  | .serverTurn now => { x with server := (Station.turn (Server.handler now)).state x.server }
  | .clientTurn now => { x with client := (Station.turn (Client.handler now)).state x.client }
  | .serverChore chore =>
      { x with server := { x.server with endpoint := chore.apply x.server.endpoint } }
  | .clientChore chore =>
      { x with client := { x.client with endpoint := chore.apply x.client.endpoint } }

/-- A number of steps, one after the other. -/
def relayAll (x : Pair κ) (relays : List Relay) : Pair κ := relays.foldl relay x

theorem relayAll_append (x : Pair κ) (first second : List Relay) :
    x.relayAll (first ++ second) = (x.relayAll first).relayAll second :=
  List.foldl_append ..

/-- Nothing is on its way. -/
structure Quiet (x : Pair κ) : Prop where
  server : x.server.Silent
  client : x.client.Silent

/-! ## What a conversation is about -/

/-- A content that a server has for a client: what either of them knows when the conversation
begins. -/
structure Topic (κ : Type) where
  name : ModuleName
  publication : Publication
  contents : Registry Publication
  subscriptions : Subscriptions κ
  serverConfig : Endpoint.Config
  clientConfig : Endpoint.Config

/-- How far a conversation has come. -/
inductive Progress where
  /-- A signal is on its way. -/
  | announced
  /-- A request is on its way. -/
  | asked
  /-- So many fragments have been taken, and the others are on their way. -/
  | streaming (i : Nat)

namespace Topic

variable (t : Topic κ)

/-- The server has the content, the client wants it, and their datagrams are for each other. -/
structure Shared : Prop where
  served : t.contents.find? t.name = some t.publication
  honest : t.publication.Honest
  wanted : t.subscriptions.replicas.contains t.name = true
  length_lt : t.publication.content.length < UInt32.size
  clientHears : t.clientConfig.Hears t.serverConfig
  serverHears : t.serverConfig.Hears t.clientConfig

/-- How many fragments the content has. -/
def count : Nat := Server.fragmentCount t.publication.content

/-- The packets that are on their way to the client. -/
def toClient : Progress → List Bytes
  | .announced => [controlPacket .signal t.name t.publication.hash]
  | .asked => []
  | .streaming i => (Server.packets t.name t.publication).drop i

/-- The packets that are on their way to the server. -/
def toServer : Progress → List Bytes
  | .announced => []
  | .asked => [controlPacket .update t.name t.publication.hash]
  | .streaming _ => []

/-- What the client keeps. -/
def known : Progress → Subscriptions κ
  | .announced => t.subscriptions
  | .asked => t.subscriptions
  | .streaming i => Client.deliverAll
      ((Client.contentMessages t.name t.publication.content).take i) t.subscriptions

/-- How much traffic is still to come at most. -/
def ahead : Progress → Nat
  | .announced => 3 * t.count + 4
  | .asked => 3 * t.count + 1
  | .streaming i => t.count - i

variable {t}

theorem Shared.length_packets (h : t.Shared) :
    (Server.packets t.name t.publication).length = t.count := by
  rw [Server.packets, if_pos h.length_lt, List.length_map, List.length_range, count]

theorem Shared.packets_getElem? (h : t.Shared) {i : Nat} {payload : Bytes} {rest : List Bytes}
    (hdrop : (Server.packets t.name t.publication).drop i = payload :: rest) :
    i < t.count ∧ payload = Server.fragmentPacket t.name t.publication i ∧
      rest = (Server.packets t.name t.publication).drop (i + 1) := by
  have hlt : i < (Server.packets t.name t.publication).length := by
    have hlength := congrArg List.length hdrop
    rw [List.length_drop, List.length_cons] at hlength
    omega
  rw [List.drop_eq_getElem_cons hlt, List.cons.injEq] at hdrop
  obtain ⟨hhead, htail⟩ := hdrop
  refine ⟨?_, ?_, htail.symm⟩
  · rw [← h.length_packets]
    exact hlt
  · rw [← hhead]
    simp [Server.packets, h.length_lt]

/-- The client after one more fragment. -/
theorem known_succ {i : Nat} (hi : i < t.count) :
    t.known (.streaming (i + 1)) = Client.deliver
      ⟨t.name, ContentHash.of t.publication.content,
        .data (Server.fragment t.publication.content i)⟩ (t.known (.streaming i)) := by
  have hlt : i < (Client.contentMessages t.name t.publication.content).length := by
    rw [Client.contentMessages, List.length_map, List.length_range]
    exact hi
  have hget : (Client.contentMessages t.name t.publication.content)[i] =
      ⟨t.name, ContentHash.of t.publication.content,
        .data (Server.fragment t.publication.content i)⟩ := by
    simp [Client.contentMessages]
  rw [known, known, List.take_succ_eq_append_getElem hlt, hget, Client.deliverAll,
    List.foldl_append]
  rfl

/-- When all packets have been taken, the client has handled them all. -/
theorem Shared.known_of_toClient_eq_nil (h : t.Shared) {progress : Progress}
    (hclient : t.toClient progress = []) (hserver : t.toServer progress = []) :
    t.known progress =
      Client.deliverAll (Client.contentMessages t.name t.publication.content)
        t.subscriptions := by
  cases progress with
  | announced => cases hclient
  | asked => cases hserver
  | streaming i =>
    have hcount : t.count ≤ i := by
      rw [← h.length_packets]
      exact List.drop_eq_nil_iff.mp hclient
    have hlength : (Client.contentMessages t.name t.publication.content).length ≤ i := by
      rw [Client.contentMessages, List.length_map, List.length_range]
      exact hcount
    rw [known, List.take_of_length_le hlength]

end Topic

/-! ## One direction -/

section Direction

variable {ρ ρ' : Type} {config : Endpoint.Config} {sender sender' : Station MemoryLink ρ}
  {receiver receiver' : Station MemoryLink ρ'} {out : List Outgoing}

/-- These frames, the oldest first, are on their way from one station to another, as a sender with
this configuration sends them. -/
structure OnTheWay (config : Endpoint.Config) (sender : Station MemoryLink ρ)
    (receiver : Station MemoryLink ρ') (out : List Outgoing) : Prop where
  frames : receiver.endpoint.link.inbound ++ sender.endpoint.link.pipeline =
    out.map Outgoing.frame
  sent : ∀ o ∈ out, o.From config

/-- What does not concern the two ends of the way. -/
theorem OnTheWay.congr (h : OnTheWay config sender receiver out)
    (hpipeline : sender'.endpoint.link.pipeline = sender.endpoint.link.pipeline)
    (hinbound : receiver'.endpoint.link.inbound = receiver.endpoint.link.inbound) :
    OnTheWay config sender' receiver' out := by
  refine ⟨?_, h.sent⟩
  rw [hpipeline, hinbound]
  exact h.frames

/-- Frames are carried over. -/
theorem OnTheWay.carry (h : OnTheWay config sender receiver out) (n : Nat) :
    OnTheWay config (relieved n sender) (give (sender.endpoint.link.outbound.take n) receiver)
      out := by
  refine ⟨?_, h.sent⟩
  have hframes := h.frames
  rw [MemoryLink.pipeline, ← List.take_append_drop n sender.endpoint.link.outbound] at hframes
  rw [Station.give_eq, ← hframes]
  simp only [MemoryLink.pipeline, List.append_assoc]
  rfl

/-- More is sent. -/
theorem OnTheWay.emit (h : OnTheWay config sender receiver out) {more : List Outgoing}
    (hpipeline : sender'.endpoint.link.pipeline =
      sender.endpoint.link.pipeline ++ more.map Outgoing.frame)
    (hsent : ∀ o ∈ more, o.From config) : OnTheWay config sender' receiver (out ++ more) := by
  constructor
  · rw [hpipeline, ← List.append_assoc, h.frames, List.map_append]
  · intro o ho
    rcases List.mem_append.mp ho with hold | hnew
    · exact h.sent o hold
    · exact hsent o hnew

/-- The oldest frame is read. -/
theorem OnTheWay.read {o : Outgoing} (h : OnTheWay config sender receiver (o :: out))
    {frame : Bytes} (hinbound : receiver.endpoint.link.inbound =
      frame :: receiver'.endpoint.link.inbound) :
    OnTheWay config sender receiver' out := by
  have hframes := h.frames
  rw [hinbound, List.cons_append, List.map_cons, List.cons.injEq] at hframes
  exact ⟨hframes.2, fun o' ho' => h.sent o' (List.mem_cons_of_mem _ ho')⟩

theorem pipeline_give (frames : List Bytes) (s : Station MemoryLink ρ) :
    (give frames s).endpoint.link.pipeline = s.endpoint.link.pipeline := by
  rw [Station.give_eq]
  rfl

end Direction

/-! ## The invariant -/

/-- What is on its way between two stations that have come so far with a topic. -/
structure Talk (t : Topic κ) (x : Pair κ) (progress : Progress) (sc cs : List Outgoing) : Prop where
  server : Station.Working t.serverConfig x.server
  client : Station.Working t.clientConfig x.client
  contents : x.server.role = t.contents
  known : x.client.role = t.known progress
  down : OnTheWay t.serverConfig x.server x.client sc
  up : OnTheWay t.clientConfig x.client x.server cs
  clientPackets : Outgoing.payloads sc = t.toClient progress
  serverPackets : Outgoing.payloads cs = t.toServer progress

/-- How many frames are still to be read at most. -/
def remaining (t : Topic κ) (progress : Progress) (sc cs : List Outgoing) : Nat :=
  Outgoing.totalChatter sc + Outgoing.totalChatter cs + t.ahead progress

namespace Talk

variable {t : Topic κ} {x : Pair κ} {progress : Progress} {sc cs : List Outgoing}

/-! ## Carrying and chores -/

theorem toClient (h : Talk t x progress sc cs) (n : Nat) :
    Talk t (x.relay (.toClient n)) progress sc cs :=
  ⟨h.server.congr rfl rfl rfl rfl, h.client.give _, h.contents, h.known, h.down.carry n,
    h.up.congr (pipeline_give ..) rfl, h.clientPackets, h.serverPackets⟩

theorem toServer (h : Talk t x progress sc cs) (n : Nat) :
    Talk t (x.relay (.toServer n)) progress sc cs :=
  ⟨h.server.give _, h.client.congr rfl rfl rfl rfl, h.contents, h.known,
    h.down.congr (pipeline_give ..) rfl, h.up.carry n, h.clientPackets, h.serverPackets⟩

/-- The server sends something that carries no packet. -/
theorem serverEmit (h : Talk t x progress sc cs) {e : Endpoint.OnMemory} {out : List Outgoing}
    (hemits : x.server.endpoint.Emits e out) (hout : Outgoing.payloads out = []) :
    Talk t { x with server := { x.server with endpoint := e } } progress (sc ++ out) cs := by
  refine ⟨h.server.emit hemits h.server.buffer, h.client, h.contents, h.known,
    h.down.emit hemits.queued.pipeline ?_, h.up.congr rfl hemits.queued.inbound, ?_,
    h.serverPackets⟩
  · rw [← h.server.config_eq]
    exact hemits.addressed
  · rw [Outgoing.payloads_append, hout, List.append_nil, h.clientPackets]

/-- The client sends something that carries no packet. -/
theorem clientEmit (h : Talk t x progress sc cs) {e : Endpoint.OnMemory} {out : List Outgoing}
    (hemits : x.client.endpoint.Emits e out) (hout : Outgoing.payloads out = []) :
    Talk t { x with client := { x.client with endpoint := e } } progress sc (cs ++ out) := by
  refine ⟨h.server, h.client.emit hemits h.client.buffer, h.contents, h.known,
    h.down.congr rfl hemits.queued.inbound, h.up.emit hemits.queued.pipeline ?_, h.clientPackets,
    ?_⟩
  · rw [← h.client.config_eq]
    exact hemits.addressed
  · rw [Outgoing.payloads_append, hout, List.append_nil, h.serverPackets]

/-! ## Turns -/

/-- The client has taken a frame, and everything is as the new progress says. -/
theorem clientTurned {o : Outgoing} (h : Talk t x progress (o :: sc) cs)
    {c : Client MemoryLink κ} {frame : Bytes} {rest : List Bytes} {answers out : List Outgoing}
    (hinbound : x.client.endpoint.link.inbound = frame :: rest)
    (hturned : Station.Turned Client.deliver Client.answer x.client c frame rest answers out)
    {progress' : Progress} (hknown : c.role = t.known progress')
    (hclient : Outgoing.payloads sc = t.toClient progress')
    (hserver : Outgoing.payloads (cs ++ (answers ++ out)) = t.toServer progress') :
    Talk t ⟨x.server, c⟩ progress' sc (cs ++ (answers ++ out)) := by
  have hrest : c.endpoint.link.inbound = rest := hturned.emits.queued.inbound
  refine ⟨h.server, h.client.turned hturned, h.contents, hknown,
    h.down.read (hrest ▸ hinbound), h.up.emit hturned.emits.queued.pipeline ?_, hclient, hserver⟩
  rw [← h.client.config_eq]
  exact hturned.emits.addressed

/-- The server has taken a frame, and everything is as the new progress says. -/
theorem serverTurned {o : Outgoing} (h : Talk t x progress sc (o :: cs))
    {s : Server MemoryLink Publication} {frame : Bytes} {rest : List Bytes}
    {answers out : List Outgoing} (hinbound : x.server.endpoint.link.inbound = frame :: rest)
    (hturned : Station.Turned (fun _ contents => contents) Server.answer x.server s frame rest
      answers out)
    {progress' : Progress} (hknown : x.client.role = t.known progress')
    (hclient : Outgoing.payloads (sc ++ (answers ++ out)) = t.toClient progress')
    (hserver : Outgoing.payloads cs = t.toServer progress') :
    Talk t ⟨s, x.client⟩ progress' (sc ++ (answers ++ out)) cs := by
  have hrest : s.endpoint.link.inbound = rest := hturned.emits.queued.inbound
  have hrole : s.role = t.contents := by
    rw [hturned.role, ← h.contents]
    split
    · rfl
    · rfl
  refine ⟨h.server.turned hturned, h.client, hrole, hknown,
    h.down.emit hturned.emits.queued.pipeline ?_, h.up.read (hrest ▸ hinbound), hclient, hserver⟩
  rw [← h.server.config_eq]
  exact hturned.emits.addressed

/-- A frame that the client reads brings the conversation nearer to its end. -/
theorem clientTurn (h : Talk t x progress sc cs) (ht : t.Shared) (now : Nat)
    (hsome : x.client.endpoint.link.inbound ≠ []) :
    ∃ progress' sc' cs', Talk t (x.relay (.clientTurn now)) progress' sc' cs' ∧
      remaining t progress' sc' cs' < remaining t progress sc cs := by
  obtain ⟨frame, rest, hinbound⟩ := List.exists_cons_of_ne_nil hsome
  obtain ⟨c, answers, out, hturn, hturned⟩ := Station.turn_turned (Client.handler_plays now)
    hinbound h.client.accounts h.client.buffer
  have hrelay : x.relay (.clientTurn now) = ⟨x.server, c⟩ := by
    simp only [relay, Action.state_of_ok hturn]
  rw [hrelay]
  have hframes := h.down.frames
  rw [hinbound] at hframes
  cases sc with
  | nil => cases hframes
  | cons o sc =>
    rw [List.cons_append, List.map_cons, List.cons.injEq] at hframes
    have hhead : o.frame = frame := hframes.1.symm
    have hpackets := h.clientPackets
    cases hpayload : o.payload? with
    | none =>
      obtain ⟨hrole, hpayloads, hchatter⟩ := hturned.of_arp hhead hpayload
      rw [Outgoing.payloads, List.filterMap_cons_none hpayload] at hpackets
      refine ⟨progress, sc, cs ++ (answers ++ out), ?_, ?_⟩
      · refine h.clientTurned hinbound hturned (hrole.trans h.known) hpackets ?_
        rw [Outgoing.payloads_append, hpayloads, List.append_nil, h.serverPackets]
      · simp only [remaining, Outgoing.totalChatter_append, Outgoing.totalChatter_cons]
          at hchatter ⊢
        omega
    | some payload =>
      rw [Outgoing.payloads, List.filterMap_cons_some hpayload] at hpackets
      have hread := fun message => hturned.of_datagram h.client.flows hhead
        (h.down.sent o (List.mem_cons_self ..)) (h.client.config_eq.symm ▸ ht.clientHears)
        hpayload message
      cases progress with
      | announced =>
        rw [Topic.toClient, List.cons.injEq] at hpackets
        obtain ⟨rfl, hnone⟩ := hpackets
        obtain ⟨hrole, hpayloads, hchatter⟩ := hread _ (Message.decode_signal _ _)
        have hwanted : x.client.role.replicas.contains t.name = true := by
          rw [h.known]
          exact ht.wanted
        have hanswer : Client.answer x.client.role ⟨t.name, t.publication.hash, .signal⟩ =
            [controlPacket .update t.name t.publication.hash] := by
          simp only [Client.answer, hwanted, if_true]
        rw [hanswer] at hpayloads hchatter
        refine ⟨.asked, sc, cs ++ (answers ++ out), ?_, ?_⟩
        · refine h.clientTurned hinbound hturned (hrole.trans h.known) hnone ?_
          rw [Outgoing.payloads_append, hpayloads, h.serverPackets]
          rfl
        · simp only [remaining, Topic.ahead, Outgoing.totalChatter_append,
            Outgoing.totalChatter_cons, List.length_singleton] at hchatter ⊢
          omega
      | asked => cases hpackets
      | streaming i =>
        obtain ⟨hi, rfl, hlater⟩ := ht.packets_getElem? hpackets.symm
        obtain ⟨hrole, hpayloads, hchatter⟩ := hread _ (Server.decode_fragmentPacket _ _ _)
        have hanswer : Client.answer x.client.role ⟨t.name, t.publication.hash,
            .data (Server.fragment t.publication.content i)⟩ = [] := rfl
        rw [hanswer] at hpayloads hchatter
        refine ⟨.streaming (i + 1), sc, cs ++ (answers ++ out), ?_, ?_⟩
        · refine h.clientTurned hinbound hturned ?_ hlater ?_
          · rw [hrole, h.known, Topic.known_succ hi]
            have hhash : t.publication.hash = ContentHash.of t.publication.content := ht.honest
            rw [hhash]
          · rw [Outgoing.payloads_append, hpayloads, List.append_nil, h.serverPackets]
            rfl
        · simp only [remaining, Topic.ahead, Outgoing.totalChatter_append,
            Outgoing.totalChatter_cons, List.length_nil] at hchatter ⊢
          omega

/-- A frame that the server reads brings the conversation nearer to its end. -/
theorem serverTurn (h : Talk t x progress sc cs) (ht : t.Shared) (now : Nat)
    (hsome : x.server.endpoint.link.inbound ≠ []) :
    ∃ progress' sc' cs', Talk t (x.relay (.serverTurn now)) progress' sc' cs' ∧
      remaining t progress' sc' cs' < remaining t progress sc cs := by
  obtain ⟨frame, rest, hinbound⟩ := List.exists_cons_of_ne_nil hsome
  obtain ⟨s, answers, out, hturn, hturned⟩ := Station.turn_turned (Server.handler_plays now)
    hinbound h.server.accounts h.server.buffer
  have hrelay : x.relay (.serverTurn now) = ⟨s, x.client⟩ := by
    simp only [relay, Action.state_of_ok hturn]
  rw [hrelay]
  have hframes := h.up.frames
  rw [hinbound] at hframes
  cases cs with
  | nil => cases hframes
  | cons o cs =>
    rw [List.cons_append, List.map_cons, List.cons.injEq] at hframes
    have hhead : o.frame = frame := hframes.1.symm
    have hpackets := h.serverPackets
    cases hpayload : o.payload? with
    | none =>
      obtain ⟨-, hpayloads, hchatter⟩ := hturned.of_arp hhead hpayload
      rw [Outgoing.payloads, List.filterMap_cons_none hpayload] at hpackets
      refine ⟨progress, sc ++ (answers ++ out), cs, ?_, ?_⟩
      · refine h.serverTurned hinbound hturned h.known ?_ hpackets
        rw [Outgoing.payloads_append, hpayloads, List.append_nil, h.clientPackets]
      · simp only [remaining, Outgoing.totalChatter_append, Outgoing.totalChatter_cons]
          at hchatter ⊢
        omega
    | some payload =>
      rw [Outgoing.payloads, List.filterMap_cons_some hpayload] at hpackets
      cases progress with
      | announced => cases hpackets
      | streaming i => cases hpackets
      | asked =>
        rw [Topic.toServer, List.cons.injEq] at hpackets
        obtain ⟨rfl, hnone⟩ := hpackets
        obtain ⟨-, hpayloads, hchatter⟩ := hturned.of_datagram h.server.flows hhead
          (h.up.sent o (List.mem_cons_self ..)) (h.server.config_eq.symm ▸ ht.serverHears)
          hpayload _ (Message.decode_update _ _)
        have hanswer : Server.answer x.server.role ⟨t.name, t.publication.hash, .update⟩ =
            Server.packets t.name t.publication := by
          simp only [Server.answer, h.contents, ht.served]
        rw [hanswer] at hpayloads hchatter
        rw [ht.length_packets] at hchatter
        refine ⟨.streaming 0, sc ++ (answers ++ out), cs, ?_, ?_⟩
        · refine h.serverTurned hinbound hturned h.known ?_ hnone
          rw [Outgoing.payloads_append, hpayloads, h.clientPackets]
          rfl
        · simp only [remaining, Topic.ahead, Outgoing.totalChatter_append,
            Outgoing.totalChatter_cons] at hchatter ⊢
          omega

end Talk

end RomCast.Exchange
