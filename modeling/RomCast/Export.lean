import RomCast.ContentHash
import RomCast.Files.Tree

set_option autoImplicit false

/-!
# Exports

The file that a module's visible content is written to.  A content is written to a temporary file
beside it first and then takes the file's name, so that nobody ever reads half a content.  An export
remembers the hash of what it wrote last, and writes nothing while the content still has that hash;
what fails is tried again the next time.
-/

namespace RomCast

/-- An exported file, and the hash of what was written to it last. -/
structure Export where
  path : FilePath
  written : Option ContentHash := none
  deriving DecidableEq, Inhabited

namespace Export

/-- The extension of temporary files. -/
def temporaryExtension : String := "tmp"

/-- Write a file by way of a temporary file; its directory is made if it is missing. -/
def writeWhole (path : FilePath) (content : Bytes) : Action SystemError FileTree Unit := do
  if let some directory := path.parent? then FileTree.createDirectories directory
  let temporary := path.withExtension temporaryExtension
  FileTree.write temporary content
  FileTree.rename temporary path

/-- Write the content unless it has been written. -/
def sync (content : Bytes) (e : Export) (files : FileTree) : Export × FileTree :=
  let hash := ContentHash.of content
  if e.written = some hash then (e, files)
  else match writeWhole e.path content files with
    | .ok () files => ({ e with written := some hash }, files)
    | .error _ files => (e, files)

/-- Write a content to each of several exports, in order. -/
def syncAll (content : Bytes) : List Export → FileTree → List Export × FileTree
  | [], files => ([], files)
  | e :: rest, files =>
      let (e, files) := e.sync content files
      let (rest, files) := syncAll content rest files
      (e :: rest, files)

end Export

end RomCast
