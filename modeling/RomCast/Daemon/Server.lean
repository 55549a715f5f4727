import RomCast.Daemon.Event
import RomCast.Server
import RomCast.Source

set_option autoImplicit false

/-!
# The server's loop

A server keeps its publications as their source files are and answers what arrives.  It announces
every module at the start, a module whose content has changed when it finds the change, and every
module again whenever it is time for that.
-/

namespace RomCast.Daemon

/-- A server and the source files of its modules. -/
structure ServerLoop (L : Type) where
  server : Server L Publication
  sources : List (ModuleName × Source) := []

namespace ServerLoop

variable {L : Type} [Transport L]

/-- Serve a module, and watch its source file if it has one. -/
def addModule (m : ModuleConfig) (s : ServerLoop L) : Except StartError (ServerLoop L) := do
  let publication ← m.publication.mapError StartError.config
  let server := s.server.register publication.name publication
  return {
    server
    sources := match m.path with
      | some path => s.sources ++ [(publication.name, { path })]
      | none => s.sources }

/-- Look at one module's source file; the answer is whether what is served has changed. -/
def refresh (files : FileTree) (server : Server L Publication) (name : ModuleName)
    (source : Source) : Bool × Server L Publication × Source :=
  match server.role.find? name with
  | none => (false, server, source)
  | some publication =>
      let (changed, source, publication) := source.refresh files publication
      (changed, server.register name publication, source)

/-- Look at every source file, and hand each module whose content has changed to `announce`. -/
def refreshAll (files : FileTree)
    (announce : ModuleName → Server L Publication → Server L Publication) (s : ServerLoop L) :
    ServerLoop L :=
  let (server, sources) := s.sources.foldl
    (fun (server, sources) (name, source) =>
      let (changed, server, source) := refresh files server name source
      (if changed then announce name server else server, sources ++ [(name, source)]))
    (s.server, [])
  { server, sources }

/-- Do something with the server. -/
def run {ε α : Type} (x : Action ε (Server L Publication) α) (s : ServerLoop L) : ServerLoop L :=
  { s with server := x.state s.server }

/-- Announce one module. -/
def announce (now : Nat) (name : ModuleName) (server : Server L Publication) :
    Server L Publication :=
  Action.state (Server.sendUpdate now name : Action Empty _ Unit) server

/-- Announce every module. -/
def announceAll (now : Nat) (s : ServerLoop L) : ServerLoop L :=
  s.run (Server.sendUpdates now : Action Empty _ Unit)

/-- A server at the start: every module is served, every source file has been read, and every module
has been announced. -/
def start (now : Nat) (modules : List ModuleConfig) (endpoint : Endpoint L) (files : FileTree) :
    Except StartError (ServerLoop L) := do
  let s ← modules.foldlM (fun s m => addModule m s) { server := Server.new endpoint }
  return (s.refreshAll files fun _ server => server).announceAll now

/-- React to an event. -/
def step (now : Nat) (files : FileTree) (s : ServerLoop L) : Event → ServerLoop L
  | .readable => s.run (Server.poll now)
  | .notified => s
  | .sourceTick => s.refreshAll files (announce now)
  | .arpTick =>
      let s := s.run (Station.onEndpoint (Endpoint.pollTimers now))
      s.run (Station.onEndpoint Endpoint.flush)
  | .announceTick => s.announceAll now

end ServerLoop

end RomCast.Daemon
