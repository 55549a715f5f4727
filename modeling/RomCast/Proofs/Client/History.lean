import RomCast.Proofs.Client.Request
import RomCast.Proofs.Exchange.Setup
import RomCast.Proofs.Station.Intact

set_option autoImplicit false

/-!
# What may have happened to a client

A client on a link in memory is polled and asks for contents, its replicas are changed in any way,
its endpoint is used for something else, and frames come and go on its link.  Whatever the order of
all this is, it is intact between two incidents (`intact_run`).
-/

namespace RomCast.Client

open Station (Intact)

/-- Something that happens to a client. -/
inductive Incident (κ : Type) where
  /-- The endpoint is used for something else, or something happens to its link. -/
  | endpoint (incident : Endpoint.Incident)
  | poll (now : Nat)
  | request (now : Nat) (name : ModuleName)
  /-- Other modules are replicated, or anything else happens to the replicas. -/
  | subscribe (change : Subscriptions κ → Subscriptions κ)

variable {κ : Type} {queue : Nat} {c : Client MemoryLink κ}

/-- The client after an incident. -/
def Incident.apply : Incident κ → Client MemoryLink κ → Client MemoryLink κ
  | endpoint incident, c => { c with endpoint := (Endpoint.Tapped.step ⟨c.endpoint, []⟩
      incident).endpoint }
  | poll now, c => (Client.poll now).state c
  | request now name, c => (requestUpdate now name).state c
  | subscribe change, c => { c with role := change c.role }

/-- One incident leaves a client intact. -/
theorem intact_after (h : Intact queue c) (incident : Incident κ) :
    Intact queue (incident.apply c) := by
  cases incident with
  | endpoint incident => exact h.incident incident
  | poll now => exact h.poll (handler_plays now)
  | request now name =>
    obtain ⟨e', out, hstate, hstreams⟩ := requestUpdate_streams now name c h.accounts
    rw [Incident.apply, hstate]
    exact h.emit hstreams.emits
  | subscribe change => exact h.congr rfl rfl

/-- A client after incidents, one after the other. -/
def afterAll (c : Client MemoryLink κ) (incidents : List (Incident κ)) : Client MemoryLink κ :=
  incidents.foldl (fun c incident => incident.apply c) c

theorem intact_run (h : Intact queue c) (incidents : List (Incident κ)) :
    Intact queue (afterAll c incidents) := by
  induction incidents generalizing c with
  | nil => exact h
  | cons incident rest ih => exact ih (intact_after h incident)

/-- A client that replicates nothing yet is intact. -/
theorem intact_new (setup : Exchange.Setup) (limit : Nat) :
    Intact setup.queue (Client.new setup.endpoint limit : Client MemoryLink κ) :=
  ⟨setup.accounts, List.length_replicate, Bytes.length_zeros bufferSize⟩

end RomCast.Client
