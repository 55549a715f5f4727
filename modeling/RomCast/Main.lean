import RomCast.CommandLine

set_option autoImplicit false

/-!
# The daemon

Reads the environment, the configuration file and the interface, and writes the default
configuration file.  Raw sockets are not within reach of this program, so that a link that could be
opened is reported as one the system does not offer.
-/

namespace RomCast

/-- The variables that the daemon looks at. -/
def variableNames : List String := [
  "HOME", "XDG_CONFIG_HOME", "REMROM_CONFIG", "REMROM_NETWORK__INTERFACE", "REMROM_NETWORK__SRC",
  "REMROM_NETWORK__DST", "REMROM_NETWORK__DST_MAC", "REMROM_NETWORK__UDP_PORT",
  "REMROM_NETWORK__CHKSUM_OFFLOAD", "REMROM_SERVER__RESIGNAL_INTERVAL_SECS",
  "REMROM_CLIENT__REQUEST_ON_STARTUP", "REMROM_CLIENT__MAX_CONTENT_SIZE"]

/-- The variables that are set. -/
def readEnvironment : IO Environment :=
  variableNames.filterMapM fun key => do return (← IO.getEnv key).map (key, ·)

/-- What stands under a path, if anything does. -/
def readNode (path : FilePath) : IO (Option FileNode) := do
  try
    let content ← IO.FS.readBinFile path.text
    return some (.file content.toList 0)
  catch
    | .noFileOrDirectory .. => return none
    | _ => return some .directory

/-- The file under a path, and the directories it lies in. -/
def readTree (path : FilePath) : IO FileTree := do
  let tree : FileTree := {}
  match ← readNode path with
  | none => return tree
  | some node =>
      let tree := match path.parent? with
        | some directory => (FileTree.createDirectories directory).state tree
        | none => tree
      match tree.place path with
      | .ok location => return tree.put location node
      | .error _ => return tree

/-- The content of a file, if there is one. -/
def readFile (path : FilePath) : IO (Option Bytes) := do
  match ← readNode path with
  | some (.file content _) => return some content
  | _ => return none

/-- What this machine shows of an interface. -/
def readHost (name : String) : IO Host := do
  let address ← readFile ⟨Host.addressPath name⟩
  let index ← readFile ⟨"/sys/class/net/" ++ name ++ "/ifindex"⟩
  let number := (index.bind Text.decode?).bind fun text =>
    Text.decimal? (UInt32.size - 1) (Text.trim text)
  let interface : Interface := { index := UInt32.ofNat (number.getD 0), address }
  return { interfaces := [(name, interface)], socketError := some .notImplemented }

/-- Write a file that one tree has and an earlier one does not; what cannot be written is left
out. -/
def writeNew (path : FilePath) (before after : FileTree) : IO Unit := do
  if before.contains path then return ()
  match after.read path with
  | .error _ => return ()
  | .ok content =>
      try
        if let some directory := path.parent? then
          unless directory.text.isEmpty do IO.FS.createDirAll directory.text
        IO.FS.writeBinFile path.text ⟨content.toArray⟩
      catch _ => return ()

end RomCast

open RomCast in
/-- Run the daemon. -/
def main (args : List String) : IO UInt32 := do
  let env ← readEnvironment
  let path := Config.filePath env
  let before ← readTree path
  let host ← match CommandLine.configure env before with
    | .ok config _ => readHost config.network.interface
    | .error _ _ => pure {}
  match CommandLine.start host env args 0 before with
  | .ok _ after =>
      writeNew path before after
      return 0
  | .error failure after =>
      writeNew path before after
      IO.eprint failure.render
      return 1
