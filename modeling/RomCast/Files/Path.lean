import RomCast.Text.Basic

set_option autoImplicit false

/-!
# Paths

A path is a text whose names are separated by slashes.  Empty names and the name `.` mean nothing,
except that a path which begins with a slash is absolute and that a path may consist of a leading
`.` alone; the name `..` leads one directory up, and only the file system knows where that is.
-/

namespace RomCast

/-- A path to a file or directory. -/
structure FilePath where
  text : String
  deriving DecidableEq, Repr, Inhabited

namespace FilePath

/-- Whether the path begins at the root. -/
def isAbsolute (p : FilePath) : Bool := p.text.toList.head? = some '/'

/-- Whether the path ends in a slash. -/
def endsInSlash (p : FilePath) : Bool := p.text.toList.getLast? = some '/'

/-- What stands between the slashes, in order. -/
def parts (p : FilePath) : List String :=
  ((Text.splitWhere (· = '/') p.text.toList).filter fun part => !part.isEmpty).map String.ofList

/-- Whether the path ends in `.` or `..`, slashes aside. -/
def endsInDots (p : FilePath) : Bool :=
  p.parts.getLast? = some "." || p.parts.getLast? = some ".."

/-- The names that count, in order: all parts but `.`, which only counts at the front of a relative
path. -/
def components (p : FilePath) : List String :=
  let meaningful := List.filter fun part : String => part ≠ "."
  match p.parts with
  | "." :: rest => if p.isAbsolute then meaningful rest else "." :: meaningful rest
  | parts => meaningful parts

/-! ## What a path lies in -/

/-- What a path begins with before its first name: the slash of the root, or a leading `.`. -/
def front : List Char → List Char
  | '/' :: _ => ['/']
  | ['.'] => ['.']
  | '.' :: '/' :: _ => ['.']
  | _ => []

/-- The text behind the front, without the slashes and single dots behind its last name. -/
def dropTail (text : List Char) : List Char :=
  let parts := (Text.splitWhere (· = '/') text).reverse
  let trailing := parts.takeWhile fun part => part.isEmpty || part = ['.']
  text.take (text.length - (trailing.flatMap ('/' :: ·)).length)

/-- The text in front of its last name, which it ends in. -/
def dropName (text : List Char) : List Char :=
  (text.dropLast.reverse.dropWhile (· ≠ '/')).reverse

/-- The directory that the path lies in, unless it is the root or empty.  What the path says up to
there stays as it is written, superfluous slashes included. -/
def parent? (p : FilePath) : Option FilePath :=
  let start := front p.text.toList
  match dropTail (p.text.toList.drop start.length) with
  | [] => if start = ['.'] then some ⟨""⟩ else none
  | c :: rest => some ⟨String.ofList (start ++ dropTail (dropName (c :: rest)))⟩

theorem length_front_le (text : List Char) : (front text).length ≤ text.length := by
  unfold front
  split <;> simp

theorem length_dropTail_le (text : List Char) : (dropTail text).length ≤ text.length :=
  List.length_take_le' ..

theorem length_dropName_lt {text : List Char} (h : text ≠ []) :
    (dropName text).length < text.length := by
  have hp := List.length_pos_iff.2 h
  have hd := (List.dropWhile_sublist (· ≠ '/') (l := text.dropLast.reverse)).length_le
  simp only [List.length_reverse, List.length_dropLast] at hd
  simp only [dropName, List.length_reverse]
  omega

/-- A directory's path is shorter than the paths in it. -/
theorem length_lt_of_parent? {p q : FilePath} (h : p.parent? = some q) :
    q.text.length < p.text.length := by
  have hf := length_front_le p.text.toList
  have ht := length_dropTail_le (p.text.toList.drop (front p.text.toList).length)
  simp only [List.length_drop] at ht
  simp only [parent?] at h
  split at h
  · split at h
    · next hs =>
      obtain rfl := Option.some.inj h
      rw [hs, String.length_toList] at hf
      exact hf
    · simp at h
  · next c rest hc =>
    obtain rfl := Option.some.inj h
    rw [hc] at ht
    have hn := length_dropName_lt (List.cons_ne_nil c rest)
    have hr := length_dropTail_le (dropName (c :: rest))
    rw [← String.length_toList, ← String.length_toList, String.toList_ofList, List.length_append]
    omega

/-- The path, the directory that it lies in, and so on. -/
def ancestors (p : FilePath) : List FilePath :=
  match h : p.parent? with
  | none => [p]
  | some directory =>
      have := length_lt_of_parent? h
      p :: ancestors directory
termination_by p.text.length

/-! ## File names -/

/-- The name of the file that the path leads to. -/
def fileName? (p : FilePath) : Option String :=
  match p.components.getLast? with
  | none => none
  | some name => if name = ".." ∨ name = "." then none else some name

/-- One more name behind a directory's path. -/
def join (directory : FilePath) (name : String) : FilePath :=
  if directory.text.isEmpty || directory.endsInSlash then ⟨directory.text ++ name⟩
  else ⟨directory.text ++ "/" ++ name⟩

/-- What stands before the last dot of a file name, and what stands behind it, unless there is
nothing before it. -/
def splitName? (name : List Char) : Option (List Char × List Char) :=
  let behind := (name.reverse.takeWhile (· ≠ '.')).reverse
  match name.take (name.length - behind.length - 1) with
  | [] => none
  | stem => some (stem, behind)

/-- The path without as many characters at its end as its file name's extension has. -/
def dropExtension (p : FilePath) : FilePath :=
  match p.fileName?.bind (splitName? ·.toList) with
  | none => p
  | some (_, extension) =>
      ⟨String.ofList (p.text.toList.take (p.text.length - extension.length))⟩

/-- The path with an extension behind the stem of its file name; a path that names no file is left
alone. -/
def addExtension (p : FilePath) (extension : String) : FilePath :=
  match p.fileName? with
  | none => p
  | some name =>
      let name := name.toList
      let stem := ((splitName? name).map Prod.fst).getD name
      let start := front p.text.toList
      let names := dropTail (p.text.toList.drop start.length)
      let directory := start ++ names.take (names.length - name.length)
      ⟨String.ofList (directory ++ stem ++ '.' :: extension.toList)⟩

/-- The same path with another extension.  The old one goes first, from the end of the path, so that
slashes may stand there for it; a file name such as `..a` leaves `..` behind, which names no
file. -/
def withExtension (p : FilePath) (extension : String) : FilePath :=
  p.dropExtension.addExtension extension

end FilePath

end RomCast
