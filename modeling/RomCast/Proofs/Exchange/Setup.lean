import RomCast.Exchange
import RomCast.Proofs.Client.Integrity
import RomCast.Proofs.Server.Stream

set_option autoImplicit false

/-!
# Setting up a server and a client

A server and a client on links in memory, at the start: they have sent and received nothing, their
buffers are free, and the server's publications announce the hashes of what they serve.
-/

namespace RomCast.Exchange

/-- How an endpoint on a link in memory is set up. -/
structure Setup where
  mac : Mac
  /-- How many transmit buffers the link has. -/
  queue : Nat
  batch : Option Nat
  config : Endpoint.Config

/-- The endpoint that is set up. -/
def Setup.endpoint (s : Setup) : Endpoint.OnMemory :=
  Endpoint.new { MemoryLink.ofQueue s.mac s.queue with batch := s.batch } s.config

/-- A server of publications that have been given nothing. -/
def serving (endpoint : Endpoint.OnMemory)
    (contents : List (ModuleName × Bool × Option Bytes)) : Server MemoryLink Publication :=
  contents.foldl (fun s c => s.register c.1 (Publication.new c.1 c.2.1 c.2.2))
    (Server.new endpoint)

/-! ## What holds at the start -/

theorem Setup.accounts (s : Setup) : s.endpoint.link.pool.Accounts [] :=
  TransmitPool.ofCount_accounts s.queue

theorem Setup.pipeline (s : Setup) : s.endpoint.link.pipeline = [] := rfl

/-- A server at the start has its endpoint, an empty receive buffer, and honest publications. -/
theorem serving_honest (endpoint : Endpoint.OnMemory)
    (contents : List (ModuleName × Bool × Option Bytes)) :
    (serving endpoint contents).endpoint = endpoint ∧
      (serving endpoint contents).buffer = Bytes.zeros bufferSize ∧
      Server.AllHonest (serving endpoint contents).role := by
  have hfold : ∀ s : Server MemoryLink Publication,
      Server.AllHonest s.role →
      let s' := contents.foldl (fun s c => s.register c.1 (Publication.new c.1 c.2.1 c.2.2)) s
      s'.endpoint = s.endpoint ∧ s'.buffer = s.buffer ∧
        Server.AllHonest s'.role := by
    induction contents with
    | nil => exact fun s hs => ⟨rfl, rfl, hs⟩
    | cons c rest ih =>
      intro s hs
      exact ih (s.register c.1 (Publication.new c.1 c.2.1 c.2.2))
        (hs.insert c.1 (Publication.new_honest ..))
  exact hfold (Server.new endpoint) (fun name p hp => nomatch hp)

/-- A client at the start has its endpoint and an empty receive buffer. -/
theorem starting_endpoint {κ : Type} (endpoint : Endpoint.OnMemory) (limit : Nat)
    (modules : List (ModuleName × Option Bytes)) :
    let c : Client MemoryLink κ := Client.starting endpoint limit modules
    c.endpoint = endpoint ∧ c.buffer = Bytes.zeros bufferSize := by
  have hfold : ∀ c : Client MemoryLink κ,
      let c' := modules.foldl (fun c m => c.register (Replica.new m.1 m.2)) c
      c'.endpoint = c.endpoint ∧ c'.buffer = c.buffer := by
    induction modules with
    | nil => exact fun c => ⟨rfl, rfl⟩
    | cons m rest ih => exact fun c => ih (c.register (Replica.new m.1 m.2))
  exact hfold (Client.new endpoint limit)

end RomCast.Exchange
