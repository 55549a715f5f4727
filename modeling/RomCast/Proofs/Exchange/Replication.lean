import RomCast.Proofs.Exchange.Rounds
import RomCast.Proofs.Exchange.Setup

set_option autoImplicit false

/-!
# Replication from any state

Whatever has happened to a server and a client before, one announcement and lossless delivery
replicate a content: once nothing is on its way any more, the client has committed it once and shows
it bit for bit (`announcement_replicates`).
-/

namespace RomCast.Exchange

variable {κ : Type}

/-! ## What may have happened before -/

/-- Something that happens to a server and a client.  Frames come from anywhere, frames get lost,
and what the client keeps changes in any way. -/
inductive Incident (κ : Type) where
  | step (relay : Relay)
  | frameToServer (frame : Bytes)
  | frameToClient (frame : Bytes)
  | serverCollect
  | clientCollect
  | announce (now : Nat) (name : ModuleName)
  | request (now : Nat) (name : ModuleName)
  | publish (name : ModuleName) (content : Bytes)
  | clear (name : ModuleName)
  | clientChange (f : Subscriptions κ → Subscriptions κ)

/-- The two after a content was announced. -/
def announced (now : Nat) (name : ModuleName) (x : Pair κ) : Pair κ :=
  let announce : Action LinkError (Server MemoryLink Publication) Unit := Server.sendUpdate now name
  { x with server := announce.state x.server }

/-- The two after an incident. -/
def after (x : Pair κ) : Incident κ → Pair κ
  | .step relay => x.relay relay
  | .frameToServer frame => { x with server := give [frame] x.server }
  | .frameToClient frame => { x with client := give [frame] x.client }
  | .serverCollect => { x with server := (takeSent x.server).2 }
  | .clientCollect => { x with client := (takeSent x.client).2 }
  | .announce now name => x.announced now name
  | .request now name => { x with client := (Client.requestUpdate now name).state x.client }
  | .publish name content =>
      { x with server := { x.server with
          role := x.server.role.modify name fun p => (p.update content).2 } }
  | .clear name =>
      { x with server := { x.server with role := x.server.role.modify name fun p => p.clear.2 } }
  | .clientChange f => { x with client := { x.client with role := f x.client.role } }

/-- The two after a number of incidents. -/
def afterAll (x : Pair κ) (incidents : List (Incident κ)) : Pair κ := incidents.foldl after x

/-- A server and a client that have sent and received nothing. -/
def meeting (server client : Setup) (contents : List (ModuleName × Bool × Option Bytes))
    (limit : Nat) (modules : List (ModuleName × Option Bytes)) : Pair κ where
  server := serving server.endpoint contents
  client := Client.starting client.endpoint limit modules

/-- Both stations work, and the server is honest about what it serves. -/
structure Sound (serverConfig clientConfig : Endpoint.Config) (x : Pair κ) : Prop where
  server : Station.Working serverConfig x.server
  client : Station.Working clientConfig x.client
  honest : Server.AllHonest x.server.role

namespace Sound

variable {serverConfig clientConfig : Endpoint.Config} {x : Pair κ}

theorem relay (h : Sound serverConfig clientConfig x) (relay : Relay) :
    Sound serverConfig clientConfig (x.relay relay) := by
  cases relay with
  | toClient n => exact ⟨h.server.congr rfl rfl rfl rfl, h.client.give _, h.honest⟩
  | toServer n => exact ⟨h.server.give _, h.client.congr rfl rfl rfl rfl, h.honest⟩
  | serverTurn now =>
    refine ⟨h.server.turn (Server.handler_plays now), h.client, ?_⟩
    show Server.AllHonest ((Station.turn (Server.handler now)).state x.server).role
    rw [Server.turn_role]
    exact h.honest
  | clientTurn now => exact ⟨h.server, h.client.turn (Client.handler_plays now), h.honest⟩
  | serverChore chore =>
    obtain ⟨out, hemits, -⟩ := chore.apply_emits h.server.accounts
    exact ⟨h.server.emit hemits h.server.buffer, h.client, h.honest⟩
  | clientChore chore =>
    obtain ⟨out, hemits, -⟩ := chore.apply_emits h.client.accounts
    exact ⟨h.server, h.client.emit hemits h.client.buffer, h.honest⟩

theorem announced (h : Sound serverConfig clientConfig x) (now : Nat) (name : ModuleName) :
    Sound serverConfig clientConfig (x.announced now name) := by
  obtain ⟨e', out, hstate, hstreams⟩ :=
    Server.sendUpdate_streams (ε := LinkError) now name x.server h.server.accounts
  have hannounced : x.announced now name =
      { x with server := { x.server with endpoint := e' } } := by
    simp only [Exchange.announced, hstate]
  rw [hannounced]
  exact ⟨h.server.emit hstreams.emits h.server.buffer, h.client, h.honest⟩

theorem after (h : Sound serverConfig clientConfig x) (incident : Incident κ) :
    Sound serverConfig clientConfig (x.after incident) := by
  cases incident with
  | step relay => exact h.relay relay
  | frameToServer frame => exact ⟨h.server.give [frame], h.client, h.honest⟩
  | frameToClient frame => exact ⟨h.server, h.client.give [frame], h.honest⟩
  | serverCollect => exact ⟨h.server.congr rfl rfl rfl rfl, h.client, h.honest⟩
  | clientCollect => exact ⟨h.server, h.client.congr rfl rfl rfl rfl, h.honest⟩
  | announce now name => exact h.announced now name
  | request now name =>
    obtain ⟨e', out, hstate, hstreams⟩ :=
      Client.requestUpdate_streams now name x.client h.client.accounts
    have hrequested : x.after (.request now name) =
        { x with client := { x.client with endpoint := e' } } := by
      simp only [Exchange.after, hstate]
    rw [hrequested]
    exact ⟨h.server, h.client.emit hstreams.emits h.client.buffer, h.honest⟩
  | publish name content =>
    exact ⟨h.server.congr rfl rfl rfl rfl, h.client,
      h.honest.modify name fun p _ => p.update_honest content⟩
  | clear name =>
    exact ⟨h.server.congr rfl rfl rfl rfl, h.client,
      h.honest.modify name fun _ hp => Publication.clear_honest hp⟩
  | clientChange f => exact ⟨h.server, h.client.congr rfl rfl rfl rfl, h.honest⟩

theorem afterAll (h : Sound serverConfig clientConfig x) (incidents : List (Incident κ)) :
    Sound serverConfig clientConfig (x.afterAll incidents) := by
  induction incidents generalizing x with
  | nil => exact h
  | cons incident rest ih => exact ih (h.after incident)

end Sound

theorem Setup.flows {s : Setup} (hqueue : 0 < s.queue) (hbatch : s.batch ≠ some 0) :
    s.endpoint.link.Flows := by
  refine ⟨?_, hbatch⟩
  show 0 < (TransmitPool.ofCount s.queue).buffers.length
  rw [TransmitPool.ofCount, List.length_replicate]
  exact hqueue

theorem sound_meeting {server client : Setup} (hserver : server.endpoint.link.Flows)
    (hclient : client.endpoint.link.Flows) (contents : List (ModuleName × Bool × Option Bytes))
    (limit : Nat) (modules : List (ModuleName × Option Bytes)) :
    Sound server.config client.config
      (meeting server client contents limit modules : Pair κ) := by
  obtain ⟨hserving, hserverBuffer, hhonest⟩ := serving_honest server.endpoint contents
  obtain ⟨hstarting, hclientBuffer⟩ := starting_endpoint (κ := κ) client.endpoint limit modules
  refine ⟨⟨?_, ?_, ?_, ?_⟩, ⟨?_, ?_, ?_, ?_⟩, hhonest⟩
  · show (serving server.endpoint contents).endpoint.link.pool.Accounts []
    rw [hserving]
    exact server.accounts
  · show (serving server.endpoint contents).buffer.length = bufferSize
    rw [hserverBuffer, Bytes.length_zeros]
  · show (serving server.endpoint contents).endpoint.config = server.config
    rw [hserving]
    rfl
  · show (serving server.endpoint contents).endpoint.link.Flows
    rw [hserving]
    exact hserver
  · show (Client.starting client.endpoint limit modules).endpoint.link.pool.Accounts []
    rw [hstarting]
    exact client.accounts
  · show (Client.starting client.endpoint limit modules).buffer.length = bufferSize
    rw [hclientBuffer, Bytes.length_zeros]
  · show (Client.starting client.endpoint limit modules).endpoint.config = client.config
    rw [hstarting]
    rfl
  · show (Client.starting client.endpoint limit modules).endpoint.link.Flows
    rw [hstarting]
    exact hclient

/-! ## From the announcement to the end -/

/-- An announcement begins a conversation. -/
theorem Sound.talk {serverConfig clientConfig : Endpoint.Config} {x : Pair κ}
    (h : Sound serverConfig clientConfig x) (hquiet : x.Quiet) (now : Nat) {name : ModuleName}
    {p : Publication} (hserved : x.server.role.find? name = some p)
    (hpos : 0 < p.content.length) :
    ∃ out, Talk ⟨name, p, x.server.role, x.client.role, serverConfig, clientConfig⟩
      (x.announced now name) .announced out [] := by
  obtain ⟨e', out, hstate, hstreams⟩ :=
    Server.sendUpdate_streams (ε := LinkError) now name x.server h.server.accounts
  have hannounced : x.announced now name =
      { x with server := { x.server with endpoint := e' } } := by
    simp only [Exchange.announced, hstate]
  have hsignal : Server.signal x.server.role name = [controlPacket .signal name p.hash] := by
    simp only [Server.signal, hserved, if_pos (Nat.ne_of_gt hpos)]
  have hpackets := hstreams.complete h.server.flows
  rw [hsignal] at hpackets
  rw [hannounced]
  have hdown : OnTheWay serverConfig x.server x.client [] :=
    ⟨by rw [hquiet.client.inbound, hquiet.server.pipeline]; rfl, List.forall_mem_nil _⟩
  have hup : OnTheWay clientConfig x.client x.server [] :=
    ⟨by rw [hquiet.server.inbound, hquiet.client.pipeline]; rfl, List.forall_mem_nil _⟩
  refine ⟨out, h.server.emit hstreams.emits h.server.buffer, h.client, rfl, rfl,
    hdown.emit hstreams.emits.queued.pipeline ?_, hup.congr rfl hstreams.emits.queued.inbound,
    hpackets, rfl⟩
  rw [← h.server.config_eq]
  exact hstreams.emits.addressed

namespace Talk

variable {t : Topic κ} {x : Pair κ} {progress : Progress} {sc cs : List Outgoing}

/-- The conversation goes on, whatever step is taken. -/
theorem relay (h : Talk t x progress sc cs) (ht : t.Shared) (relay : Relay) :
    ∃ progress' sc' cs', Talk t (x.relay relay) progress' sc' cs' := by
  have hread : ∀ now d, ∃ progress' sc' cs',
      Talk t (x.relay (.read now d)) progress' sc' cs' := by
    intro now d
    by_cases hinbound : x.inbound d = []
    · rw [relay_read_of_nil now hinbound]
      exact ⟨progress, sc, cs, h⟩
    · obtain ⟨progress', sc', cs', htalk, -⟩ := h.read ht now hinbound
      exact ⟨progress', sc', cs', htalk⟩
  cases relay with
  | toClient n => exact ⟨progress, sc, cs, h.toClient n⟩
  | toServer n => exact ⟨progress, sc, cs, h.toServer n⟩
  | serverTurn now => exact hread now .toServer
  | clientTurn now => exact hread now .toClient
  | serverChore chore =>
    obtain ⟨out, hemits, hatMost⟩ := chore.apply_emits h.server.accounts
    exact ⟨progress, sc ++ out, cs, h.serverEmit hemits hatMost.payloads_eq⟩
  | clientChore chore =>
    obtain ⟨out, hemits, hatMost⟩ := chore.apply_emits h.client.accounts
    exact ⟨progress, sc, cs ++ out, h.clientEmit hemits hatMost.payloads_eq⟩

theorem relayAll (h : Talk t x progress sc cs) (ht : t.Shared) (relays : List Relay) :
    ∃ progress' sc' cs', Talk t (x.relayAll relays) progress' sc' cs' := by
  induction relays generalizing x progress sc cs with
  | nil => exact ⟨progress, sc, cs, h⟩
  | cons step rest ih =>
    obtain ⟨progress', sc', cs', htalk⟩ := h.relay ht step
    exact ih htalk

/-- When nothing is on its way any more, the client has handled every packet of the content. -/
theorem known_of_quiet (h : Talk t x progress sc cs) (ht : t.Shared) (hquiet : x.Quiet) :
    x.client.role = Client.deliverAll (Client.contentMessages t.name t.publication.content)
      t.subscriptions := by
  have hclient := h.down.frames
  rw [hquiet.client.inbound, hquiet.server.pipeline] at hclient
  have hserver := h.up.frames
  rw [hquiet.server.inbound, hquiet.client.pipeline] at hserver
  have hsc : sc = [] := List.map_eq_nil_iff.mp hclient.symm
  have hcs : cs = [] := List.map_eq_nil_iff.mp hserver.symm
  subst hsc
  subst hcs
  rw [h.known]
  exact ht.known_of_toClient_eq_nil h.clientPackets.symm h.serverPackets.symm

end Talk

/-- Let anything happen to a server and a client until nothing is on its way, and let the server
then announce a content that the client replicates and has room for.  However frames are carried
over and read after that, if none gets lost or overtakes another and nothing is on its way in the
end, the client has committed the content once: it shows it bit for bit and has signalled each
session's capability once, and all its other modules are as they were.  And polling the two in turn
does lead to such an end. -/
theorem announcement_replicates (server client : Setup)
    (contents : List (ModuleName × Bool × Option Bytes)) (limit : Nat)
    (modules : List (ModuleName × Option Bytes)) (incidents : List (Incident κ))
    (hserverQueue : 0 < server.queue) (hclientQueue : 0 < client.queue)
    (hserverBatch : server.batch ≠ some 0) (hclientBatch : client.batch ≠ some 0)
    (hclientHears : client.config.Hears server.config)
    (hserverHears : server.config.Hears client.config) (now : Nat) (name : ModuleName)
    (p : Publication) (r : Replica κ) :
    let x := (meeting server client contents limit modules).afterAll incidents
    x.Quiet → x.server.role.find? name = some p → x.client.replica? name = some r →
      0 < p.content.length → p.content.length ≤ x.client.role.limit →
      p.content.length < UInt32.size →
      (∀ relays, ((x.announced now name).relayAll relays).Quiet →
        ∃ r', Client.Replicated x.client.role
            ((x.announced now name).relayAll relays).client.role name p.content r r' ∧
          r'.space.content = p.content) ∧
      ∃ n relays, (rounds now n (x.announced now name) {}).1 =
          (x.announced now name).relayAll relays ∧
        ((x.announced now name).relayAll relays).Quiet := by
  intro x hquiet hserved hreplica hpos hlimit hlength
  have hsound : Sound server.config client.config x :=
    (sound_meeting (Setup.flows hserverQueue hserverBatch) (Setup.flows hclientQueue hclientBatch)
      contents limit modules).afterAll incidents
  obtain ⟨out, htalk⟩ := hsound.talk hquiet now hserved hpos
  have hwanted : x.client.role.replicas.contains name = true := by
    have hfind : x.client.role.replicas.find? name = some r := hreplica
    simp [Registry.contains, hfind]
  have hshared : Topic.Shared ⟨name, p, x.server.role, x.client.role, server.config,
      client.config⟩ :=
    ⟨hserved, hsound.honest name p hserved, hwanted, hlength, hclientHears, hserverHears⟩
  refine ⟨?_, ?_⟩
  · intro relays hend
    obtain ⟨progress, sc, cs, hlater⟩ := htalk.relayAll hshared relays
    obtain ⟨r', hreplicated⟩ := Client.deliverAll_replicates hreplica hpos hlength hlimit
    refine ⟨r', ?_, ?_⟩
    · rw [hlater.known_of_quiet hshared hend]
      exact hreplicated
    · rw [hreplicated.completed.space]
      rfl
  · have hwithin : Within _ _ (x.announced now name) := ⟨_, _, _, htalk, Nat.le_refl _⟩
    obtain ⟨n, hend⟩ := exists_rounds_quiet hshared now _ hwithin {}
    obtain ⟨relays, hrelays⟩ := rounds_relays hshared now n hwithin {}
    refine ⟨n, relays, hrelays, ?_⟩
    rw [← hrelays]
    exact hend

/-! ## Two neighbours -/

namespace Neighbours

def rom : ModuleName := ⟨"rom", ModuleName.valid_rom⟩

def first : Ipv4Address := Ipv4Address.ofBytes [10, 0, 0, 1]

def second : Ipv4Address := Ipv4Address.ofBytes [10, 0, 0, 2]

/-- A server that knows the client's address and sends one frame at a time. -/
def server : Setup where
  mac := Mac.zero
  queue := 1
  batch := some 1
  config := { source := some first, target := some second }

/-- A client that knows the server's address and leaves checksums to its network card. -/
def client : Setup where
  mac := Mac.zero
  queue := 1
  batch := none
  config := { source := some second, target := some first, checksumOffload := true }

/-- A session is attached to the client's module and registers a capability. -/
def history : List (Incident Nat) :=
  [.clientChange fun s => { s with replicas := s.replicas.modify rom fun r =>
    { r with space := (r.space.attached "rom").register 0 7 } }]

/-- The two before the announcement. -/
def pair : Pair Nat :=
  (meeting server client [(rom, true, some [1, 2, 3])] 16 [(rom, none)]).afterAll history

/-- The client's module before the announcement. -/
def replica : Replica Nat where
  space := { name := rom, default := [], sessions := [(0, some 7)], nextId := 1 }

end Neighbours

theorem announcement_replicates_between_neighbours :
    Neighbours.pair.Quiet ∧ ∃ n relays,
      (rounds 0 n (Neighbours.pair.announced 0 Neighbours.rom) {}).1 =
        (Neighbours.pair.announced 0 Neighbours.rom).relayAll relays ∧
      ∃ r', Client.Replicated Neighbours.pair.client.role
          ((Neighbours.pair.announced 0 Neighbours.rom).relayAll relays).client.role Neighbours.rom
          [1, 2, 3] Neighbours.replica r' ∧
        r'.space.content = [1, 2, 3] := by
  have hquiet : Neighbours.pair.Quiet := ⟨⟨rfl, rfl, rfl⟩, ⟨rfl, rfl, rfl⟩⟩
  obtain ⟨hends, n, relays, hrounds, hend⟩ :=
    announcement_replicates Neighbours.server Neighbours.client
      [(Neighbours.rom, true, some [1, 2, 3])] 16 [(Neighbours.rom, none)] Neighbours.history
      (by decide) (by decide) (by decide) (by decide) (by decide) (by decide) 0 Neighbours.rom
      (Publication.new Neighbours.rom true (some [1, 2, 3])) Neighbours.replica
      hquiet rfl rfl (by decide) (by decide) (by decide)
  exact ⟨hquiet, n, relays, hrounds, hends relays hend⟩

end RomCast.Exchange
