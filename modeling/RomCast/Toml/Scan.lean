set_option autoImplicit false

/-!
# Scanning text

A scan takes characters off the front of a text and fails where the text does not begin as it
should.  Repetition ends where an item cannot be read.  Every item takes at least one character, so
that a text holds no more items than characters.
-/

namespace RomCast.Toml

/-- A scan of a text that yields an `α` and leaves the rest. -/
abbrev Scan (α : Type) : Type := StateT (List Char) Option α

namespace Scan

variable {α : Type}

/-- Items as long as they can be read, at most one for each character of `bound`, behind the items
that were `found` before, the latest of which comes first. -/
def repeatFrom (item : Scan α) (found : List α) : List Char → List Char → List α × List Char
  | [], text => (found.reverse, text)
  | _ :: bound, text =>
      match item text with
      | none => (found.reverse, text)
      | some (a, rest) => repeatFrom item (a :: found) bound rest

/-- Items as long as they can be read. -/
def many (item : Scan α) : Scan (List α) := fun text => some (repeatFrom item [] text text)

/-- One or more items with a separator between each two. -/
def separated (separator : Char) (item : Scan α) : Scan (List α) := do
  let first ← item
  let others ← many do
    let text ← get
    match text with
    | c :: rest => if c = separator then do set rest; item else failure
    | [] => failure
  return first :: others

/-- One character of a class. -/
def one (p : Char → Bool) : Scan Char := fun text =>
  match text with
  | c :: rest => if p c then some (c, rest) else none
  | [] => none

/-- This character. -/
def char (c : Char) : Scan Unit := do let _ ← one (· = c)

/-- Whether the text begins with these characters; they are taken if it does. -/
def optional (cs : List Char) : Scan Bool := fun text =>
  if cs.isPrefixOf text then some (true, text.drop cs.length) else some (false, text)

/-- These characters. -/
def exactly (cs : List Char) : Scan Unit := do
  if ← optional cs then return () else failure

/-- Characters as long as they are of a class. -/
def takeWhile (p : Char → Bool) : Scan (List Char) := fun text =>
  some (text.takeWhile p, text.dropWhile p)

/-- What a scan yields, if it succeeds. -/
def maybe (scan : Scan α) : Scan (Option α) := fun text =>
  match scan text with
  | some (a, rest) => some (some a, rest)
  | none => some (none, text)

/-- The end of the text. -/
def atEnd : Scan Unit := fun text => if text.isEmpty then some ((), []) else none

end Scan

/-! ## Blanks, line ends and comments -/

/-- A character that takes space within a line. -/
def isSpace (c : Char) : Bool := c = ' ' || c = '\t'

/-- A character that may stand in a comment. -/
def isCommentChar (c : Char) : Bool := c = '\t' || (' ' ≤ c && c ≠ '\x7f')

/-- Space within a line. -/
def space : Scan Unit := do let _ ← Scan.takeWhile isSpace

/-- The end of a line: a line feed, or a carriage return and a line feed. -/
def lineEnd : Scan Unit := do
  let _ ← Scan.optional ['\r']
  Scan.char '\n'

/-- A comment, up to the end of its line. -/
def comment : Scan Unit := do
  Scan.char '#'
  let _ ← Scan.takeWhile isCommentChar

/-- What may follow on a line: space, a comment, and the end of the line or of the text. -/
def lineRest : Scan Unit := do
  space
  let _ ← Scan.maybe comment
  lineEnd <|> Scan.atEnd

/-- Space, line ends, and comments that end with their line. -/
def spaceAndLines : Scan Unit := do
  let _ ← Scan.many (lineEnd <|> (do comment; lineEnd) <|> do
    let _ ← Scan.one isSpace
    space)

end RomCast.Toml
