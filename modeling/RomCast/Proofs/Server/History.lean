import RomCast.Proofs.Exchange.Setup
import RomCast.Proofs.Station.Intact

set_option autoImplicit false

/-!
# What may have happened to a server

A server on a link in memory is polled, announces contents and is given others, while its endpoint
is used in any way and frames come and go on its link.  Whatever the order of all this is, between
two incidents every transmit buffer is accounted for, the receive buffer has its length, and every
publication announces the hash of what it serves (`Sound.run`).
-/

namespace RomCast

namespace Server

/-- Something that happens to a server. -/
inductive Incident where
  /-- The endpoint is used for something else, or something happens to its link. -/
  | endpoint (incident : Endpoint.Incident)
  | poll (now : Nat)
  | announce (now : Nat) (name : ModuleName)
  | announceAll (now : Nat)
  /-- A module is served, in place of an earlier one of the same name. -/
  | register (name : ModuleName) (binary : Bool) (default : Option Bytes)
  | publish (name : ModuleName) (content : Bytes)
  | clear (name : ModuleName)

/-- The server after an incident. -/
def Incident.apply : Incident → Server MemoryLink Publication → Server MemoryLink Publication
  | endpoint incident, s => { s with endpoint := (Endpoint.Tapped.step ⟨s.endpoint, []⟩
      incident).endpoint }
  | poll now, s => (Server.poll now).state s
  | announce now name, s => (sendUpdate now name : Action LinkError _ Unit).state s
  | announceAll now, s => (sendUpdates now : Action LinkError _ Unit).state s
  | register name binary default, s => s.register name (Publication.new name binary default)
  | publish name content, s =>
      { s with role := s.role.modify name fun p => (p.update content).2 }
  | clear name, s => { s with role := s.role.modify name fun p => p.clear.2 }

/-- A server between two incidents, on a link with this many transmit buffers. -/
structure Sound (queue : Nat) (s : Server MemoryLink Publication) : Prop where
  accounts : s.endpoint.link.pool.Accounts []
  buffers : s.endpoint.link.pool.buffers.length = queue
  buffer : s.buffer.length = bufferSize
  honest : AllHonest s.role

variable {queue : Nat} {s : Server MemoryLink Publication}

/-- What is sent leaves a server as sound as it was. -/
theorem Sound.emit (h : Sound queue s) {e' : Endpoint.OnMemory} {out : List Outgoing}
    (hemits : s.endpoint.Emits e' out) : Sound queue { s with endpoint := e' } :=
  ⟨hemits.accounts, hemits.queued.buffers.trans h.buffers, h.buffer, h.honest⟩

theorem Sound.intact (h : Sound queue s) : Station.Intact queue s :=
  ⟨h.accounts, h.buffers, h.buffer⟩

theorem Sound.poll (h : Sound queue s) (now : Nat) : Sound queue ((Server.poll now).state s) := by
  have hintact : Station.Intact queue ((Server.poll now).state s) :=
    h.intact.poll (handler_plays now)
  refine ⟨hintact.accounts, hintact.buffers, hintact.buffer, ?_⟩
  rw [Server.poll, Action.state_of_ok (h.intact.poll_eq (handler_plays now))]
  show AllHonest (Station.afterTurns (handler now) s.endpoint.link.inbound.length s).role
  rw [afterTurns_role]
  exact h.honest

/-! ## Incidents -/

theorem sendUpdate_sound (now : Nat) (name : ModuleName) :
    Action.Keeps (Sound queue)
      (sendUpdate now name : Action LinkError (Server MemoryLink Publication) Unit) := by
  intro s h
  obtain ⟨e', out, hstate, hstreams⟩ :=
    sendUpdate_streams (ε := LinkError) now name s h.accounts
  rw [hstate]
  exact h.emit hstreams.emits

theorem sendUpdates_sound (now : Nat) :
    Action.Keeps (Sound queue)
      (sendUpdates now : Action LinkError (Server MemoryLink Publication) Unit) :=
  Action.Keeps.bind (Action.keeps_get _) fun s =>
    Action.Keeps.forM (sendUpdate_sound now) s.role.names

theorem Sound.endpoint (h : Sound queue s) (incident : Endpoint.Incident) :
    Sound queue ((Incident.endpoint incident).apply s) :=
  have hintact := h.intact.incident incident
  ⟨hintact.accounts, hintact.buffers, hintact.buffer, h.honest⟩

/-- One incident leaves a server sound. -/
theorem Sound.after (h : Sound queue s) (incident : Incident) :
    Sound queue (incident.apply s) := by
  cases incident with
  | endpoint incident => exact h.endpoint incident
  | poll now => exact h.poll now
  | announce now name => exact sendUpdate_sound now name s h
  | announceAll now => exact sendUpdates_sound now s h
  | register name binary default =>
    exact ⟨h.accounts, h.buffers, h.buffer, h.honest.insert name (Publication.new_honest ..)⟩
  | publish name content =>
    exact ⟨h.accounts, h.buffers, h.buffer,
      h.honest.modify name fun p _ => p.update_honest content⟩
  | clear name =>
    exact ⟨h.accounts, h.buffers, h.buffer,
      h.honest.modify name fun _ hp => Publication.clear_honest hp⟩

/-- A server after incidents, one after the other. -/
def afterAll (s : Server MemoryLink Publication) (incidents : List Incident) :
    Server MemoryLink Publication :=
  incidents.foldl (fun s incident => incident.apply s) s

theorem Sound.run (h : Sound queue s) (incidents : List Incident) :
    Sound queue (afterAll s incidents) := by
  induction incidents generalizing s with
  | nil => exact h
  | cons incident rest ih => exact ih (h.after incident)

/-- A server that serves nothing yet is sound. -/
theorem sound_new (setup : Exchange.Setup) : Sound setup.queue (Server.new setup.endpoint) :=
  ⟨setup.accounts, List.length_replicate, Bytes.length_zeros bufferSize, fun _ _ hp => nomatch hp⟩

end Server

end RomCast
