import RomCast.Client
import RomCast.Daemon.Event
import RomCast.Export

set_option autoImplicit false

/-!
# The client's loop

A client replicates its modules and writes every content that becomes visible to the module's file.
All modules share one flag: commits raise it, and when the loop finds it raised it looks at every
export, so that several commits may be answered by one look.
-/

namespace RomCast.Daemon

/-- A client, the exports of its modules, and the flag that commits raise. -/
structure ClientLoop (L : Type) where
  client : Client L Unit
  exports : List (ModuleName × Export) := []
  permit : Permit := {}

namespace ClientLoop

variable {L : Type} [Transport L]

/-- What is visible of a module. -/
def visible (s : ClientLoop L) (name : ModuleName) : Bytes :=
  match s.client.replica? name with
  | some replica => replica.space.content
  | none => []

/-- Replicate a module.  If it has a file, a session looks at it under the configured name, and a
default that is not empty is written at once. -/
def addModule (m : ModuleConfig) : Action StartError (ClientLoop L × FileTree) Unit := do
  let replica : Replica Unit ← Action.ofExcept (m.replica.mapError StartError.config)
  let register (replica : Replica Unit) : Action StartError (ClientLoop L × FileTree) Unit :=
    modify fun (s, files) => ({ s with client := s.client.register replica }, files)
  match m.path with
  | none => register replica
  | some path =>
      let (id, space) ← Action.ofExcept ((replica.space.attach m.name).mapError StartError.session)
      register { replica with space := space.register id () }
      modify fun (s, files) =>
        let content := replica.space.content
        let (e, files) :=
          if content.isEmpty then ({ path }, files) else Export.sync content { path } files
        ({ s with exports := s.exports ++ [(replica.space.name, e)] }, files)

/-- Ask for every one of these modules; what cannot be asked for is passed over. -/
def requestAll (now : Nat) (names : List ModuleName) (s : ClientLoop L) : ClientLoop L :=
  let ask (client : Client L Unit) (name : ModuleName) : Client L Unit :=
    Action.state (Client.requestUpdate now name) client
  { s with client := names.foldl ask s.client }

/-- A client at the start: every module is replicated and, if the configuration says so, asked
for. -/
def start (now : Nat) (config : Config) (endpoint : Endpoint L) :
    Action StartError FileTree (ClientLoop L) := fun files =>
  let fresh : ClientLoop L := { client := Client.new endpoint config.client.maxContentSize }
  match config.modules.forM addModule (fresh, files) with
  | .error e (_, files) => .error e files
  | .ok _ (s, files) =>
      let names := s.client.role.replicas.names
      .ok (if config.client.requestOnStartup then s.requestAll now names else s) files

/-- Do something with the client, and raise the flag for every signal that comes of it. -/
def run {ε α : Type} (x : Action ε (Client L Unit) α) (s : ClientLoop L) : ClientLoop L :=
  let (journal, client) := (x.state s.client).takeJournal
  let signalled := journal.any fun (_, event) => !event.signals.isEmpty
  { s with client, permit := if signalled then s.permit.signal else s.permit }

/-- Write every content that has not been written. -/
def syncAll (s : ClientLoop L) (files : FileTree) : ClientLoop L × FileTree :=
  let (exports, files) := s.exports.foldl
    (fun (exports, files) (name, e) =>
      let (e, files) := e.sync (s.visible name) files
      (exports ++ [(name, e)], files))
    ([], files)
  ({ s with exports }, files)

/-- React to an event. -/
def step (now : Nat) (s : ClientLoop L) (files : FileTree) : Event → ClientLoop L × FileTree
  | .readable => (s.run (Client.poll now), files)
  | .notified =>
      let (raised, permit) := s.permit.take
      if raised then { s with permit }.syncAll files else (s, files)
  | .arpTick =>
      let s := s.run (Station.onEndpoint (Endpoint.pollTimers now))
      (s.run (Station.onEndpoint Endpoint.flush), files)
  | .sourceTick => (s, files)
  | .announceTick => (s, files)

end ClientLoop

end RomCast.Daemon
