import RomCast.Files.Tree
import RomCast.Publication

set_option autoImplicit false

/-!
# Sources

The file that a publication's content is read from.  A source remembers the time and length of the
version that it read last, and reads the file again only when one of them is different.  When the
file goes away, so does the content; a file that cannot be read leaves the content as it is.
-/

namespace RomCast

/-- A source file, and the stamp of the version that was read last: its time and length. -/
structure Source where
  path : FilePath
  stamp : Option (Nat × Nat) := none
  deriving DecidableEq, Inhabited

namespace Source

/-- The stamp of a file. -/
def stampOf (content : Bytes) (modified : Nat) : Nat × Nat := (modified, content.length)

/-- The file is not there: the content goes away if it came from the file. -/
def lose (s : Source) (p : Publication) : Bool × Source × Publication :=
  match s.stamp with
  | none => (false, s, p)
  | some _ =>
      let (changed, p) := p.clear
      (changed, { s with stamp := none }, p)

/-- Look at the file, and publish what is new; the answer is whether what is served has changed. -/
def refresh (files : FileTree) (s : Source) (p : Publication) : Bool × Source × Publication :=
  match files.stat s.path with
  | .ok (.file content modified) =>
      let stamp := stampOf content modified
      if s.stamp = some stamp then (false, s, p)
      else
        let (changed, p) := p.update content
        (changed, { s with stamp := some stamp }, p)
  | .ok .directory => (false, s, p)
  | .error cause => if cause = .noEntry then s.lose p else (false, s, p)

end Source

end RomCast
