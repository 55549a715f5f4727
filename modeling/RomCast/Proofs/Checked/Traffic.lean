import RomCast.Proofs.Checked.Budget
import RomCast.Proofs.Checked.Client
import RomCast.Proofs.Checked.Server

set_option autoImplicit false

/-!
# Any traffic

A client or a server on a link in memory, any byte strings as frames, and calls of its host in
between: polls, modules that are registered, contents that are announced or asked for.  Run with
checked steps, it ends where it ends without them: no slice, copy, sum or assertion faults, and no
buffer above the client's limit is asked for (`withstands_traffic`).  What checked steps may stop at
is the end of a 64-bit counter of events, and no such end is in sight before 2³⁹ incidents.
-/

namespace RomCast

open RomCast.Checked

namespace Station

/-- Something that happens on the wire of a link in memory. -/
inductive Wire where
  /-- A frame arrives. -/
  | frame (bytes : Bytes)
  /-- From now on one call sends at most so many frames. -/
  | batch (limit : Option Nat)
  /-- What was sent is taken. -/
  | collect

/-- The link after something on its wire. -/
def Wire.apply : Wire → MemoryLink → MemoryLink
  | frame bytes, link => link.deliver bytes
  | batch limit, link => { link with batch := limit }
  | collect, link => link.takeOutbound.2

/-- Something that happens to a station: on its wire, or because its host asks for it. -/
inductive Incident (α : Type) where
  | wire (event : Wire)
  | call (request : α)

variable {ε ρ α β : Type}

/-- The station after something on its wire. -/
def onWire (event : Wire) (s : Station MemoryLink ρ) : Station MemoryLink ρ :=
  { s with endpoint := { s.endpoint with link := event.apply s.endpoint.link } }

/-- The station after an incident. -/
def Incident.apply (call : α → Station MemoryLink ρ → Station MemoryLink ρ) :
    Incident α → Station MemoryLink ρ → Station MemoryLink ρ
  | wire event, s => s.onWire event
  | .call request, s => call request s

/-- The station after incidents, one after the other. -/
def afterAll (call : α → Station MemoryLink ρ → Station MemoryLink ρ) (s : Station MemoryLink ρ)
    (incidents : List (Incident α)) : Station MemoryLink ρ :=
  incidents.foldl (fun s incident => incident.apply call s) s

namespace Checked

/-- The station after an incident, unless a step of it faults. -/
def apply (call : α → Station MemoryLink ρ → Except Fault (Station MemoryLink ρ)) :
    Incident α → Station MemoryLink ρ → Except Fault (Station MemoryLink ρ)
  | .wire event, s => return s.onWire event
  | .call request, s => call request s

/-- The station after incidents, unless a step of them faults. -/
def afterAll (call : α → Station MemoryLink ρ → Except Fault (Station MemoryLink ρ))
    (s : Station MemoryLink ρ) (incidents : List (Incident α)) :
    Except Fault (Station MemoryLink ρ) :=
  incidents.foldlM (fun s incident => apply call incident s) s

/-- A checked call beside the call that it follows: between calls, a station keeps its invariant,
stays where it is with a counter past its end, and spends no more than a frame may cost. -/
structure Heeds (R : Nat → ρ → Prop)
    (strict : Station MemoryLink ρ → Except Fault (Station MemoryLink ρ))
    (plain : Station MemoryLink ρ → Station MemoryLink ρ) : Prop where
  counts : ∀ s, Idle R s → Counts (Full (plain s)) (strict s) (plain s)
  idle : ∀ s, Idle R s → Idle R (plain s)
  full : ∀ s, Idle R s → Full s → Full (plain s)
  saved : ∀ bound s, Saved bound s → Saved (bound + frameCost) (plain s)

/-- A call that is a step. -/
theorem heeds_run {R : Nat → ρ → Prop} {x : Action (Trap ε) (Station MemoryLink ρ) β}
    {y : Action ε (Station MemoryLink ρ) β}
    (h : Follows Full (Idle R) x y (fun _ => Idle R) (Idle R))
    (hsaved : ∀ bound s, Saved bound s → Saved (bound + frameCost) (y.state s)) :
    Heeds R (run x) y.state :=
  ⟨fun _ hs => h.run_counts hs, fun _ hs => h.state_mem hs, h.keeps, hsaved⟩

/-- A call that changes the role alone. -/
theorem heeds_role {R : Nat → ρ → Prop} (f : ρ → ρ)
    (h : ∀ seen role, R seen role → R seen (f role)) :
    Heeds R (fun s => .ok { s with role := f s.role }) fun s => { s with role := f s.role } :=
  ⟨fun _ _ => counts_ok _,
    fun s ⟨seen, hs⟩ => ⟨seen, hs.endpoint, hs.buffer_length, h seen s.role hs.role⟩,
    fun _ _ hfull => hfull,
    fun bound _ hs counter => Nat.le_trans (hs counter) (Nat.le_add_right bound frameCost)⟩

/-- What happens on the wire. -/
theorem heeds_wire (R : Nat → ρ → Prop) (event : Wire) :
    Heeds R (fun s => .ok (s.onWire event)) fun s => s.onWire event := by
  refine ⟨fun _ _ => counts_ok _, fun s hs => ?_, fun _ _ hfull => hfull, fun bound s hs => ?_⟩
  · obtain ⟨seen, hs⟩ := hs
    refine ⟨seen, ⟨?_, hs.endpoint.seen_le⟩, hs.buffer_length, hs.role⟩
    cases event <;> exact hs.endpoint.pool
  · intro counter
    have hle := hs counter
    cases event with
    | frame bytes =>
      show _ + (s.endpoint.link.inbound ++ [bytes]).length * frameCost ≤ _
      rw [List.length_append, List.length_singleton, Nat.succ_mul]
      show counter.get s.endpoint.counters + _ ≤ _
      omega
    | batch limit => exact Nat.le_trans hle (Nat.le_add_right _ _)
    | collect => exact Nat.le_trans hle (Nat.le_add_right _ _)

variable {R : Nat → ρ → Prop} {s : Station MemoryLink ρ}
  {strict : α → Station MemoryLink ρ → Except Fault (Station MemoryLink ρ)}
  {plain : α → Station MemoryLink ρ → Station MemoryLink ρ}

theorem apply_heeds (h : ∀ request, Heeds R (strict request) (plain request))
    (incident : Incident α) : Heeds R (apply strict incident) (incident.apply plain) := by
  cases incident with
  | wire event => exact heeds_wire R event
  | call request => exact h request

/-- Incidents one after the other. -/
theorem afterAll_heeds (h : ∀ request, Heeds R (strict request) (plain request))
    (incidents : List (Incident α)) (hs : Idle R s) :
    Counts (Full (Station.afterAll plain s incidents)) (afterAll strict s incidents)
        (Station.afterAll plain s incidents) ∧
      Idle R (Station.afterAll plain s incidents) ∧
      (Full s → Full (Station.afterAll plain s incidents)) := by
  induction incidents generalizing s with
  | nil => exact ⟨counts_ok s, hs, fun hfull => hfull⟩
  | cons incident rest ih =>
    have hheeds := apply_heeds h incident
    obtain ⟨hcounts, hidle, hfull⟩ := ih (hheeds.idle s hs)
    refine ⟨?_, hidle, fun hpassed => hfull (hheeds.full s hs hpassed)⟩
    rw [afterAll, List.foldlM_cons]
    rcases hheeds.counts s hs with hok | ⟨hstop, hpassed⟩
    · rw [hok]
      exact hcounts
    · rw [hstop]
      exact Or.inr ⟨rfl, hfull hpassed⟩

theorem afterAll_saved (h : ∀ request, Heeds R (strict request) (plain request))
    (incidents : List (Incident α)) {bound : Nat} (hs : Saved bound s) :
    Saved (bound + incidents.length * frameCost) (Station.afterAll plain s incidents) := by
  induction incidents generalizing s bound with
  | nil => exact hs.mono (Nat.le_add_right _ _)
  | cons incident rest ih =>
    refine (ih ((apply_heeds h incident).saved bound s hs)).mono ?_
    rw [List.length_cons, Nat.succ_mul]
    omega

/-- A run with checked steps ends where the run without them ends, or else at the end of a counter
that the latter has passed; and this takes more than so many incidents. -/
structure Withstands (strict : α → Station MemoryLink ρ → Except Fault (Station MemoryLink ρ))
    (plain : α → Station MemoryLink ρ → Station MemoryLink ρ) (s : Station MemoryLink ρ)
    (incidents : List (Incident α)) : Prop where
  counts : Counts (Full (Station.afterAll plain s incidents)) (afterAll strict s incidents)
    (Station.afterAll plain s incidents)
  eq_ok : incidents.length < 2 ^ 39 →
    afterAll strict s incidents = .ok (Station.afterAll plain s incidents)

theorem withstands (h : ∀ request, Heeds R (strict request) (plain request)) (hs : Idle R s)
    (hsaved : Saved 0 s) (incidents : List (Incident α)) : Withstands strict plain s incidents := by
  have hcounts := (afterAll_heeds h incidents hs).1
  refine ⟨hcounts, fun hfew => ?_⟩
  rcases hcounts with hok | ⟨-, counter, hpassed⟩
  · exact hok
  · have hle := afterAll_saved h incidents hsaved counter
    have hcost : frameCost = 2 ^ 25 := rfl
    rw [hcost] at hle
    omega

end Checked

/-- A station that has seen nothing, on a link with so many transmit buffers. -/
theorem idle_new {R : Nat → ρ → Prop} {role : ρ} (hrole : R 0 role) (mac : Mac) (queue : UInt64)
    (config : Endpoint.Config) :
    Checked.Idle R
      { endpoint := Endpoint.new (MemoryLink.ofQueue mac queue.toNat) config, role } :=
  ⟨0, ⟨TransmitPool.ofCount_sound queue, Nat.zero_le _⟩, Bytes.length_zeros bufferSize, hrole⟩

theorem saved_new (role : ρ) (mac : Mac) (queue : Nat) (config : Endpoint.Config) :
    Saved 0 { endpoint := Endpoint.new (MemoryLink.ofQueue mac queue) config, role } := by
  intro counter
  show _ + 0 * frameCost ≤ 0
  rw [Nat.zero_mul]
  cases counter <;> exact Nat.le_refl 0

end Station

/-! ## Clients and servers -/

namespace Client

variable {κ : Type}

/-- What the host of a client may ask for. -/
inductive Call (κ : Type) where
  /-- Replicate the module of this dataspace. -/
  | register (space : Dataspace κ)
  | poll (now : Nat)
  /-- Ask for a module's content. -/
  | ask (now : Nat) (name : ModuleName)

/-- The client after a call, whether it failed or not. -/
def call : Call κ → Client MemoryLink κ → Client MemoryLink κ
  | .register space => fun c => c.register { space }
  | .poll now => (poll now).state
  | .ask now name => (requestUpdate now name).state

/-- The client after a call, unless a step of it faults. -/
def Checked.call : Call κ → Client MemoryLink κ → Except Fault (Client MemoryLink κ)
  | .register space => fun c => .ok (c.register { space })
  | .poll now => run (Station.Checked.poll (handler now))
  | .ask now name => run (requestUpdate now name)

theorem call_heeds (limit : Nat) (request : Call κ) :
    Station.Checked.Heeds (fun seen (s : Subscriptions κ) => s.Modest limit seen)
      (Checked.call request) (call request) := by
  cases request with
  | register space =>
    refine Station.Checked.heeds_role (fun s : Subscriptions κ =>
      { s with replicas := s.replicas.insert space.name { space } }) fun seen s hs => ?_
    have hfresh : Replica.Modest limit seen ({ space } : Replica κ) :=
      ⟨Nat.zero_le limit, Nat.zero_le seen⟩
    exact hs.insert space.name hfresh s.journal
  | poll now =>
    have hfollows := Station.Checked.poll_follows (@Checked.handler_handles κ now limit)
    refine Station.Checked.heeds_run hfollows fun bound s hs => ?_
    have hfrugal : Station.Frugal (handler now : Station.Handler MemoryLink (Subscriptions κ)) :=
      fun message => Costs.mono (handler_costs now message) (by decide)
    exact (Station.Saved.poll hfrugal hs).mono (Nat.le_add_right _ _)
  | ask now name =>
    refine Station.Checked.heeds_run (Checked.requestUpdate_follows now name) fun bound s hs => ?_
    exact (Station.Saved.step (requestUpdate_costs now name) hs).mono
      (Nat.add_le_add_left (by decide) bound)

end Client

namespace Server

/-- What the host of a server may ask for. -/
inductive Call where
  /-- Serve a content, in place of an earlier one of the same name. -/
  | register (p : Publication)
  | poll (now : Nat)
  /-- Announce a module's content. -/
  | announce (now : Nat) (name : ModuleName)

/-- The server after a call, whether it failed or not. -/
def call : Call → Server MemoryLink Publication → Server MemoryLink Publication
  | .register p => fun s => s.register p.name p
  | .poll now => (poll now).state
  | .announce now name => (sendUpdate now name : Action LinkError _ Unit).state

/-- The server after a call, unless a step of it faults. -/
def Checked.call : Call → Server MemoryLink Publication →
    Except Fault (Server MemoryLink Publication)
  | .register p => fun s => .ok (s.register p.name p)
  | .poll now => run (Station.Checked.poll (handler now))
  | .announce now name => run (sendUpdate now name : Action (Trap LinkError) _ Unit)

theorem call_heeds (request : Call) :
    Station.Checked.Heeds (fun _ _ => True) (Checked.call request) (call request) := by
  cases request with
  | register p =>
    exact Station.Checked.heeds_role (fun served : Registry Publication => served.insert p.name p)
      fun _ _ h => h
  | poll now =>
    refine Station.Checked.heeds_run (Station.Checked.poll_follows (Checked.handler_handles now))
      fun bound s hs => ?_
    exact (Station.Saved.poll (handler_costs now) hs).mono (Nat.le_add_right _ _)
  | announce now name =>
    refine Station.Checked.heeds_run (Checked.sendUpdate_follows now name) fun bound s hs => ?_
    exact (Station.Saved.step (sendUpdate_costs now name) hs).mono
      (Nat.add_le_add_left (by decide) bound)

end Server

/-- A client that replicates nothing yet. -/
theorem Client.idle_new {κ : Type} (limit : Nat) (mac : Mac) (queue : UInt64)
    (config : Endpoint.Config) :
    Station.Checked.Idle (fun seen (s : Subscriptions κ) => s.Modest limit seen)
      (Client.new (Endpoint.new (MemoryLink.ofQueue mac queue.toNat) config) limit) :=
  Station.idle_new ⟨rfl, fun _ _ hfind => nomatch hfind⟩ mac queue config

/-- Clients and servers withstand any traffic, and a client's buffers stay within its limit. -/
theorem withstands_traffic {κ : Type} (mac : Mac) (queue : UInt64) (config : Endpoint.Config) :
    (∀ (limit : UInt32) (incidents : List (Station.Incident (Client.Call κ))),
      let c : Client MemoryLink κ :=
        Client.new (Endpoint.new (MemoryLink.ofQueue mac queue.toNat) config) limit.toNat
      Station.Checked.Withstands Client.Checked.call Client.call c incidents ∧
        ∀ name replica,
          Client.replica? (Station.afterAll Client.call c incidents) name = some replica →
          replica.background.size ≤ limit.toNat) ∧
      ∀ incidents : List (Station.Incident Server.Call),
        let s : Server MemoryLink Publication :=
          Server.new (Endpoint.new (MemoryLink.ofQueue mac queue.toNat) config)
        Station.Checked.Withstands Server.Checked.call Server.call s incidents := by
  refine ⟨fun limit incidents => ⟨?_, fun name replica hfound => ?_⟩, fun incidents => ?_⟩
  · exact Station.Checked.withstands (Client.call_heeds limit.toNat)
      (Client.idle_new limit.toNat mac queue config) (Station.saved_new _ mac _ config) incidents
  · obtain ⟨-, ⟨seen, hidle⟩, -⟩ := Station.Checked.afterAll_heeds
      (Client.call_heeds limit.toNat) incidents (Client.idle_new limit.toNat mac queue config)
    exact (hidle.role.replicas name replica hfound).size_le
  · exact Station.Checked.withstands Server.call_heeds (Station.idle_new trivial mac queue config)
      (Station.saved_new _ mac _ config) incidents

namespace OneFragment

/-- A module's name. -/
def rom : ModuleName := ⟨"rom", ModuleName.valid_rom⟩

/-- The first two bytes of a content of four. -/
def frame : Bytes :=
  ({ sourceMac := Mac.zero, targetMac := Mac.broadcast, source := Ipv4Address.ofBytes [10, 0, 0, 2],
     target := Ipv4Address.broadcast, identification := 1, port := Endpoint.defaultPort,
     withChecksum := true } : Endpoint.Addressing).frame
    (dataPacket rom ContentHash.zero 4 0 [1, 2])

/-- A client that takes contents of at most sixteen bytes. -/
def client : Client MemoryLink Unit :=
  Client.new (Endpoint.new (MemoryLink.ofQueue Mac.zero (1 : UInt64).toNat) {}) (16 : UInt32).toNat

/-- A module is registered, a fragment of it arrives, and the client is polled. -/
def incidents : List (Station.Incident (Client.Call Unit)) :=
  [.call (.register (Dataspace.new rom none)), .wire (.frame frame), .call (.poll 0)]

end OneFragment

/-- The fragment begins a transfer of four bytes, without a fault. -/
theorem withstands_traffic_fragment :
    ((Client.replica? (Station.afterAll Client.call OneFragment.client OneFragment.incidents)
        OneFragment.rom).map fun replica => replica.background.size) = some 4 ∧
      Station.Checked.afterAll Client.Checked.call OneFragment.client OneFragment.incidents =
        .ok (Station.afterAll Client.call OneFragment.client OneFragment.incidents) ∧
      ∀ name replica,
        Client.replica? (Station.afterAll Client.call OneFragment.client OneFragment.incidents)
          name = some replica → replica.background.size ≤ 16 := by
  obtain ⟨hwithstands, hwithin⟩ :=
    (@withstands_traffic Unit Mac.zero 1 {}).1 16 OneFragment.incidents
  exact ⟨by decide +kernel, hwithstands.eq_ok (by decide), hwithin⟩

end RomCast
