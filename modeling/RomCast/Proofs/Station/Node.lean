import RomCast.Proofs.Station.Related

set_option autoImplicit false

/-!
# Nodes

A node is an endpoint that is used by itself, or by a server or a client.  Everything that can be
asked of one of the three does the same over related links, and when it has ended, whether it failed
or not, no transmit buffer is in use (`Node.Operation.apply_paired`).
-/

namespace RomCast

/-- An endpoint by itself, or with the role of a server or a client. -/
inductive Node (L σ κ : Type) where
  | plain (endpoint : Endpoint L)
  | server (server : Server L σ)
  | client (client : Client L κ)

namespace Node

variable {L M σ κ : Type}

/-- The endpoint of a node. -/
def endpoint : Node L σ κ → Endpoint L
  | plain e => e
  | server s => s.endpoint
  | client c => c.endpoint

/-- The same node over another link. -/
def withLink : Node L σ κ → M → Node M σ κ
  | plain e, link => plain (e.withLink link)
  | server s, link => server (s.withLink link)
  | client c, link => client (c.withLink link)

/-- A node that does something with its endpoint. -/
def mapEndpoint (f : Endpoint L → Endpoint L) : Node L σ κ → Node L σ κ
  | plain e => plain (f e)
  | server s => server { s with endpoint := f s.endpoint }
  | client c => client { c with endpoint := f c.endpoint }

/-- Something that is asked of a node.  What only a server or only a client can do is nothing to the
others. -/
inductive Operation (σ κ : Type) where
  | endpoint (operation : Endpoint.Operation)
  /-- Read every frame that waits, deal with the packets, and send what was queued. -/
  | poll (now : Nat)
  /-- Serve other contents, in whatever way they are changed. -/
  | serve (change : Registry σ → Registry σ)
  /-- Announce a module's content. -/
  | announce (now : Nat) (name : ModuleName)
  | announceAll (now : Nat)
  /-- Replicate other modules, in whatever way the replicas are changed. -/
  | subscribe (change : Subscriptions κ → Subscriptions κ)
  /-- Ask for a module's content. -/
  | ask (now : Nat) (name : ModuleName)

/-- The node after an operation, whether it failed or not. -/
def Operation.apply [Transport L] [ContentSource σ] : Operation σ κ → Node L σ κ → Node L σ κ
  | endpoint operation, node => node.mapEndpoint operation.apply
  | poll now, server s => server ((Server.poll now).state s)
  | poll now, client c => client ((Client.poll now).state c)
  | serve change, server s => server { s with role := change s.role }
  | announce now name, server s =>
      server ((Server.sendUpdate now name : Action LinkError (Server L σ) Unit).state s)
  | announceAll now, server s =>
      server ((Server.sendUpdates now : Action LinkError (Server L σ) Unit).state s)
  | subscribe change, client c => client { c with role := change c.role }
  | ask now name, client c => client ((Client.requestUpdate now name).state c)
  | poll _, plain e => plain e
  | serve _, node => node
  | announce _ _, node => node
  | announceAll _, node => node
  | subscribe _, node => node
  | ask _ _, node => node

variable [Transport L] [Transport M]

/-- A node, and the same one over a related link. -/
def Paired (R : LinkRelation L M) (node : Node L σ κ) (twin : Node M σ κ) : Prop :=
  ∃ m, twin = node.withLink m ∧
    R.Related none node.endpoint.counters.txFrames node.endpoint.link m

variable {R : LinkRelation L M}

theorem paired_server {s : Server L σ} {t : Server M σ} (h : Station.Paired R s t) :
    Paired R (server s : Node L σ κ) (server t) := by
  obtain ⟨m, rfl, hm⟩ := h
  exact ⟨m, rfl, hm⟩

theorem paired_client {c : Client L κ} {d : Client M κ} (h : Station.Paired R c d) :
    Paired R (client c : Node L σ κ) (client d) := by
  obtain ⟨m, rfl, hm⟩ := h
  exact ⟨m, rfl, hm⟩

/-- What endpoints do alike over related links, nodes do alike. -/
theorem mapEndpoint_paired {f : Endpoint L → Endpoint L} {g : Endpoint M → Endpoint M}
    (hfg : ∀ e e', Endpoint.Paired R none e e' → Endpoint.Paired R none (f e) (g e'))
    {node : Node L σ κ} {twin : Node M σ κ} (h : Paired R node twin) :
    Paired R (node.mapEndpoint f) (twin.mapEndpoint g) := by
  obtain ⟨m, rfl, hm⟩ := h
  obtain ⟨m', heq, hm'⟩ := hfg node.endpoint (node.endpoint.withLink m) ⟨m, rfl, hm⟩
  refine ⟨m', ?_, ?_⟩
  · cases node with
    | plain e => exact congrArg plain heq
    | server s => exact congrArg (fun e => server (⟨e, s.role, s.buffer⟩ : Server M σ)) heq
    | client c => exact congrArg (fun e => client (⟨e, c.role, c.buffer⟩ : Client M κ)) heq
  · cases node with
    | plain e => exact hm'
    | server s => exact hm'
    | client c => exact hm'

/-- When an operation has ended, no buffer is in use. -/
theorem Operation.apply_paired [ContentSource σ] (operation : Operation σ κ) {node : Node L σ κ}
    {twin : Node M σ κ} (h : Paired R node twin) :
    Paired R (operation.apply node) (operation.apply twin) := by
  cases operation with
  | endpoint operation => exact mapEndpoint_paired (fun _ _ he => operation.apply_paired he) h
  | poll now =>
    obtain ⟨m, rfl, hm⟩ := h
    cases node with
    | plain e => exact ⟨m, rfl, hm⟩
    | server s =>
      exact paired_server
        ((Station.poll_parallel (Server.handler_alike now)).state ⟨m, rfl, hm⟩)
    | client c =>
      exact paired_client
        ((Station.poll_parallel (Client.handler_alike now)).state ⟨m, rfl, hm⟩)
  | serve change =>
    obtain ⟨m, rfl, hm⟩ := h
    cases node <;> exact ⟨m, rfl, hm⟩
  | announce now name =>
    obtain ⟨m, rfl, hm⟩ := h
    cases node with
    | plain e => exact ⟨m, rfl, hm⟩
    | server s => exact paired_server ((Server.sendUpdate_parallel now name).state ⟨m, rfl, hm⟩)
    | client c => exact ⟨m, rfl, hm⟩
  | announceAll now =>
    obtain ⟨m, rfl, hm⟩ := h
    cases node with
    | plain e => exact ⟨m, rfl, hm⟩
    | server s => exact paired_server ((Server.sendUpdates_parallel now).state ⟨m, rfl, hm⟩)
    | client c => exact ⟨m, rfl, hm⟩
  | subscribe change =>
    obtain ⟨m, rfl, hm⟩ := h
    cases node <;> exact ⟨m, rfl, hm⟩
  | ask now name =>
    obtain ⟨m, rfl, hm⟩ := h
    cases node with
    | plain e => exact ⟨m, rfl, hm⟩
    | server s => exact ⟨m, rfl, hm⟩
    | client c => exact paired_client ((Client.requestUpdate_parallel now name).state ⟨m, rfl, hm⟩)

end Node

end RomCast
