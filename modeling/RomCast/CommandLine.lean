import RomCast.Daemon.Run
import RomCast.Link.Interface

set_option autoImplicit false

/-!
# The command line

The daemon takes its role as its only argument; everything else comes from its configuration.
Before it opens its link it writes the default configuration file if there is none, which may fail,
loads the configuration, and makes sure that an interface is set.
-/

namespace RomCast.CommandLine

/-- Why the daemon ends: what failed, and what that was due to, the outermost cause first. -/
structure Failure where
  message : String
  causes : List String := []
  deriving DecidableEq, Repr, Inhabited

namespace Failure

/-- A cause as it stands in a report: set in, with the lines that follow its first one set in as
far, and numbered when there are several. -/
def renderCause (number : Option Nat) (cause : String) : String :=
  match number with
  | none => "    " ++ cause.replace "\n" "\n    "
  | some n =>
      let digits := toString n
      String.ofList (List.replicate (5 - digits.length) ' ') ++ digits ++ ": " ++
        cause.replace "\n" "\n       "

/-- The report of a failure. -/
def render (f : Failure) : String :=
  let head := "Error: " ++ f.message ++ "\n"
  match f.causes with
  | [] => head
  | [cause] => head ++ "\nCaused by:\n" ++ renderCause none cause ++ "\n"
  | causes =>
      let lines := causes.zipIdx.map fun (cause, i) => renderCause (some i) cause ++ "\n"
      head ++ "\nCaused by:\n" ++ String.join lines

/-- A link that cannot be opened. -/
def ofOpenError (e : OpenError) : Failure := ⟨e.message, e.causes⟩

/-- A daemon whose loop does not begin. -/
def ofStartError (e : Daemon.StartError) : Failure := { message := e.message }

end Failure

/-- The role that the arguments name. -/
def role : List String → Except Failure Role
  | "server" :: _ => .ok .server
  | "client" :: _ => .ok .client
  | other :: _ => .error { message :=
      "unknown role " ++ Text.quoted other ++ ", expected \"server\" or \"client\"" }
  | [] => .error { message := "usage: remromd <server|client>" }

/-- Write the default configuration file if there is none, and load the configuration. -/
def configure (env : Environment) : Action Failure FileTree Config := do
  let _ ← (Config.writeDefault env).attempt
  let config ← Action.ofExcept ((Config.load env (← get)).mapError fun e =>
    { message := "failed to load config", causes := [e.message] })
  if config.network.interface.isEmpty then
    throw { message :=
      "network.interface is not set (config file or REMROM_NETWORK__INTERFACE)" }
  return config

/-- Everything up to a running daemon. -/
def start (host : Host) (env : Environment) (args : List String) (now : Nat) :
    Action Failure FileTree (Daemon RawLink) := do
  let role ← Action.ofExcept (role args)
  let config ← configure env
  let link ← Action.ofExcept
    ((host.openLink config.network.interface config.network.queueSize).mapError Failure.ofOpenError)
  (Daemon.start now role config link).mapError Failure.ofStartError

end RomCast.CommandLine
