import RomCast.Action
import RomCast.Bytes
import RomCast.Files.Path
import RomCast.SystemError
import RomCast.Text.Basic

set_option autoImplicit false

/-!
# File trees

The files and directories that a program works on.  A location is the list of names on the way from
the root; the root is always a directory.  Paths are followed name by name: every name but the last
must be that of a directory, and `..` leads to the directory above.

An operation that is refused may have changed something before: `createDirectories` keeps the
directories that it made.
-/

namespace RomCast

/-- A file, with the time of its last change, or a directory. -/
inductive FileNode where
  | file (content : Bytes) (modified : Nat)
  | directory
  deriving DecidableEq, Inhabited

/-- The names on the way from the root. -/
abbrev Location : Type := List String

/-- Files and directories. -/
structure FileTree where
  nodes : List (Location × FileNode) := []
  /-- Where relative paths begin. -/
  workingDirectory : Location := []
  /-- The time that a file written now is given. -/
  now : Nat := 0
  deriving Inhabited

namespace FileTree

/-- A name of more bytes is refused. -/
def maxNameLength : Nat := 255

/-- A path of more bytes is refused. -/
def maxPathLength : Nat := 4095

/-- What stands at a location. -/
def node? (t : FileTree) (location : Location) : Option FileNode :=
  if location = [] then some .directory else t.nodes.lookup location

/-- Put something at a location, in place of what stood there. -/
def put (t : FileTree) (location : Location) (node : FileNode) : FileTree :=
  { t with nodes := (t.nodes.filter fun entry => entry.1 ≠ location) ++ [(location, node)] }

/-- Remove what stands at a location, and everything below it. -/
def removeAt (t : FileTree) (location : Location) : FileTree :=
  { t with nodes := t.nodes.filter fun entry => !location.isPrefixOf entry.1 }

/-- Remove everything below a location. -/
def clear (t : FileTree) (location : Location) : FileTree :=
  { t with nodes := t.nodes.filter fun entry =>
      entry.1 = location || !location.isPrefixOf entry.1 }

/-- What there is below a location, with the names on the way from there. -/
def below (t : FileTree) (location : Location) : List (Location × FileNode) :=
  t.nodes.filterMap fun (place, node) =>
    match location.isPrefixOf place, place.drop location.length with
    | true, name :: names => some (name :: names, node)
    | _, _ => none

/-! ## Following paths -/

/-- One name further from a directory. -/
def child (here : Location) (name : String) : Location :=
  if name = "." then here else if name = ".." then here.dropLast else here ++ [name]

/-- Follow names from a location.  There may be nothing under the last one. -/
def follow (t : FileTree) (here : Location) : List String → Except SystemError Location
  | [] => .ok here
  | name :: rest =>
      match t.node? here with
      | none => .error .noEntry
      | some (.file _ _) => .error .notDirectory
      | some .directory =>
          if maxNameLength < name.utf8ByteSize then .error .nameTooLong
          else follow t (child here name) rest

/-- Where a path begins. -/
def base (t : FileTree) (p : FilePath) : Location := if p.isAbsolute then [] else t.workingDirectory

/-- Why a path cannot be followed at all, whatever the tree holds. -/
def refusal? (p : FilePath) : Option SystemError :=
  if p.text.toList.contains '\x00' then some .invalid
  else if p.text.isEmpty then some .noEntry
  else if maxPathLength < p.text.utf8ByteSize then some .nameTooLong
  else none

/-- The location under a path, where nothing has to be. -/
def place (t : FileTree) (p : FilePath) : Except SystemError Location :=
  match refusal? p with
  | some cause => .error cause
  | none => t.follow (t.base p) p.parts

/-- The location that a path leads to.  A path that ends in a slash does not lead to a file. -/
def locate (t : FileTree) (p : FilePath) : Except SystemError Location := do
  let location ← t.place p
  match t.node? location with
  | some (.file _ _) => if p.endsInSlash then throw .notDirectory else return location
  | _ => return location

/-- What a path leads to. -/
def stat (t : FileTree) (p : FilePath) : Except SystemError FileNode := do
  match t.node? (← t.locate p) with
  | none => throw .noEntry
  | some node => return node

/-- Whether a path leads to something. -/
def contains (t : FileTree) (p : FilePath) : Bool := (t.stat p).isOk

/-- The content of a file. -/
def read (t : FileTree) (p : FilePath) : Except SystemError Bytes := do
  match ← t.stat p with
  | .directory => throw .isDirectory
  | .file content _ => return content

/-! ## Changing the tree -/

/-- Write a file, in place of an earlier one.  Its directory must exist. -/
def write (p : FilePath) (content : Bytes) : Action SystemError FileTree Unit := do
  let t ← get
  let location ← Action.ofExcept (t.locate p)
  match t.node? location with
  | some .directory => throw .isDirectory
  | some (.file _ _) => set (t.put location (.file content t.now))
  | none =>
      if p.endsInSlash then throw .isDirectory
      else set (t.put location (.file content t.now))

/-- Make a directory, unless it is there.  The directory that it lies in must exist. -/
def createDirectory (p : FilePath) : Action SystemError FileTree Unit := do
  let t ← get
  let location ← Action.ofExcept (t.place p)
  match t.node? location with
  | some (.file _ _) => throw .alreadyExists
  | some .directory => return ()
  | none => set (t.put location .directory)

/-- Make the first of these directories, each of which lies in the next one, and the ones that it
lies in, as far as they are missing. -/
def createNested : List FilePath → Action SystemError FileTree Unit
  | [] => return ()
  | p :: outer => fun t =>
      if p.components.isEmpty then .ok () t
      else match createDirectory p t with
        | .error .noEntry t => (do createNested outer; createDirectory p) t
        | answer => answer

/-- Make a directory, and the directories it lies in, as far as they are missing. -/
def createDirectories (p : FilePath) : Action SystemError FileTree Unit := createNested p.ancestors

/-- Write a file, and make the directories it lies in, as far as they are missing. -/
def writeDeep (p : FilePath) (content : Bytes) : Action SystemError FileTree Unit := do
  if let some directory := p.parent? then createDirectories directory
  write p content

/-- Give a file another path, in place of a file that is there. -/
def rename (source target : FilePath) : Action SystemError FileTree Unit := do
  let t ← get
  let origin ← Action.ofExcept (t.locate source)
  match t.node? origin with
  | none => throw .noEntry
  | some .directory => throw .notImplemented
  | some node =>
      let location ← Action.ofExcept (t.locate target)
      match t.node? location with
      | some .directory => throw .isDirectory
      | some (.file _ _) => set ((t.removeAt origin).put location node)
      | none =>
          if target.endsInSlash then throw .notDirectory
          else set ((t.removeAt origin).put location node)

/-- Remove a file, or a directory with everything in it.  A directory itself is refused, once it is
empty, when its path ends in dots and not in its name. -/
def remove (p : FilePath) : Action SystemError FileTree Unit := do
  let t ← get
  let location ← Action.ofExcept (t.locate p)
  if (t.node? location).isNone then throw .noEntry
  if p.endsInDots then
    set (t.clear location)
    throw .invalid
  set (t.removeAt location)

end FileTree

/-! ## Text files

A file that has to hold UTF-8 text. -/

/-- Why a text file cannot be read. -/
inductive TextFileError where
  | nulInPath
  | notUtf8
  | system (cause : SystemError)
  deriving DecidableEq, Repr, Inhabited

/-- The wording of an unreadable text file. -/
def TextFileError.message : TextFileError → String
  | nulInPath => "file name contained an unexpected NUL byte"
  | notUtf8 => "stream did not contain valid UTF-8"
  | system cause => cause.message

/-- The text that a file's bytes encode. -/
def textOfBytes (content : Bytes) : Except TextFileError String :=
  match Text.decode? content with
  | none => .error .notUtf8
  | some text => .ok text

/-- The text of a file. -/
def FileTree.readText (t : FileTree) (p : FilePath) : Except TextFileError String := do
  if p.text.toList.contains '\x00' then throw .nulInPath
  textOfBytes (← (t.read p).mapError TextFileError.system)

end RomCast
