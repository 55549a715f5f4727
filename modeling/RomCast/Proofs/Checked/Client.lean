import RomCast.Client
import RomCast.Proofs.Checked.Replica
import RomCast.Proofs.Checked.Station

set_option autoImplicit false

/-!
# Checked clients

Asking for a content, and handing fragments to replicas.  Every replica keeps its buffer within the
client's limit, and none has committed more often than frames were seen: a replica's own counter of
commits is never the first to reach its end.
-/

namespace RomCast

open RomCast.Checked Endpoint

variable {κ : Type}

/-- Replicas with buffers within the limit and at most so many commits each. -/
structure Subscriptions.Modest (limit commits : Nat) (s : Subscriptions κ) : Prop where
  limit_eq : s.limit = limit
  replicas : ∀ name replica, s.replicas.find? name = some replica → replica.Modest limit commits

namespace Subscriptions.Modest

variable {limit commits : Nat} {s : Subscriptions κ}

theorem mono {commits' : Nat} (h : s.Modest limit commits) (hle : commits ≤ commits') :
    s.Modest limit commits' :=
  ⟨h.limit_eq, fun name replica hfind => (h.replicas name replica hfind).mono hle⟩

/-- A replica in place of another one. -/
theorem insert (h : s.Modest limit commits) (name : ModuleName) {replica : Replica κ}
    (hreplica : replica.Modest limit commits) (journal : List (ModuleName × Replica.Event κ)) :
    Modest limit commits
      { s with replicas := s.replicas.insert name replica, journal } := by
  refine ⟨h.limit_eq, fun other found hfound => ?_⟩
  by_cases hname : other = name
  · rw [hname, Registry.find?_insert_self] at hfound
    cases hfound
    exact hreplica
  · rw [Registry.find?_insert_of_ne _ hname] at hfound
    exact h.replicas other found hfound

theorem acceptFragment (h : s.Modest limit commits) (name : ModuleName) (hash : ContentHash)
    (f : Fragment) : Modest limit (commits + 1) (Client.acceptFragment name hash f s) := by
  have hlater : s.Modest limit (commits + 1) := h.mono (Nat.le_succ commits)
  unfold Client.acceptFragment
  cases hfind : s.replicas.find? name with
  | none => exact hlater
  | some replica =>
    have haccepted := (h.replicas name replica hfind).accept hash f
    rw [← h.limit_eq] at haccepted hlater ⊢
    exact hlater.insert name haccepted _

end Subscriptions.Modest

namespace Client.Checked

/-- Take a fragment for a module, and write down what came of it. -/
def acceptFragment (name : ModuleName) (hash : ContentHash) (f : Fragment)
    (s : Subscriptions κ) : Except Fault (Subscriptions κ) :=
  match s.replicas.find? name with
  | none => return s
  | some replica => do
      let (replica, events) ← Replica.Checked.accept replica hash f s.limit
      return { s with
        replicas := s.replicas.insert name replica
        journal := s.journal ++ events.map (name, ·) }

/-- Handle a packet. -/
def handler (now : Nat) : Station.Checked.Handler (Subscriptions κ) := fun message => do
  if (← get).2.replicas.contains message.module then
    match message.body with
    | .signal =>
        (Endpoint.Checked.sendControl now .update message.module message.contentHash).onFirst
    | .data f => change fun s => do
        return (s.1, ← acceptFragment message.module message.contentHash f s.2)
    | .update => return ()

/-- Ask for a module's content without waiting for a signal. -/
def requestUpdate (now : Nat) (name : ModuleName) :
    Action (Trap FrameError) (Client MemoryLink κ) Unit := do
  if (← get).role.replicas.contains name then
    Station.onEndpoint (Endpoint.Checked.sendControl now .update name ContentHash.zero)

variable {seen limit commits : Nat}

theorem acceptFragment_counts {s : Subscriptions κ} (hs : s.Modest limit commits)
    (name : ModuleName) (hash : ContentHash) {f : Fragment}
    (hpayload : f.payload.length ≤ f.payloadSize.toNat) :
    Counts (2 ^ 64 ≤ commits + 1) (acceptFragment name hash f s)
      (Client.acceptFragment name hash f s) := by
  unfold acceptFragment Client.acceptFragment
  cases hfind : s.replicas.find? name with
  | none => exact counts_ok s
  | some replica =>
    have hcommits := (hs.replicas name replica hfind).commits_le
    refine ((Replica.Checked.accept_counts hpayload).mono fun hlast => ?_).map rfl
    exact Nat.le_trans hlast (Nat.succ_le_succ hcommits)

theorem handler_handles (now limit : Nat) :
    Station.Checked.Handles (fun seen (s : Subscriptions κ) => s.Modest limit seen) (handler now)
      (Client.handler now) := by
  refine ⟨fun seen s hs => hs.mono (Nat.le_succ seen), fun seen message htrimmed => ?_⟩
  refine follows_get fun s hs => Follows.ite (fun _ => ?_) fun _ => ?_
  · cases hbody : message.body with
    | signal =>
      have hrequest := @Endpoint.Checked.sendControl_follows (seen + 1) now .update (by decide)
        message.module message.contentHash
      exact (hrequest.onFirst (S := fun s : Subscriptions κ => s.Modest limit (seen + 1))).mono
        (fun _ hsame => hsame ▸ ⟨hs.1, hs.2.mono (Nat.le_succ seen)⟩) (fun _ _ h => h) fun _ h => h
    | update =>
      exact follows_pure fun _ hsame => hsame ▸ ⟨hs.1, hs.2.mono (Nat.le_succ seen)⟩
    | data f =>
      refine follows_count (fun s' hsame => ?_) (fun s' hsame => ?_) fun s' hsame hfull => hfull
      · rw [hsame]
        refine ((acceptFragment_counts hs.2 _ _ (htrimmed f hbody)).mono fun hlast => ?_).map rfl
        exact ⟨.rxFrames, Nat.le_trans hlast hs.1.seen_le⟩
      · rw [hsame]
        exact ⟨hs.1, hs.2.acceptFragment _ _ f⟩
  · exact follows_pure fun _ hsame => hsame ▸ ⟨hs.1, hs.2.mono (Nat.le_succ seen)⟩

theorem requestUpdate_follows {R : Nat → Subscriptions κ → Prop} (now : Nat) (name : ModuleName) :
    Follows Station.Checked.Full (Station.Checked.Idle R) (requestUpdate now name)
      (Client.requestUpdate now name) (fun _ => Station.Checked.Idle R)
      (Station.Checked.Idle R) := by
  refine follows_get fun s hs => ?_
  have hsame : ∀ s', s' = s → Station.Checked.Idle R s' := fun _ h => h ▸ hs
  refine Follows.ite (fun _ => ?_) fun _ => follows_pure hsame
  exact (Station.Checked.onEndpoint_follows fun _ =>
    Endpoint.Checked.sendControl_follows now (by decide) name ContentHash.zero).mono hsame
      (fun _ _ h => h) fun _ h => h

end Client.Checked

end RomCast
