import RomCast.Toml.Strings
import RomCast.Toml.Times
import RomCast.Toml.Value

set_option autoImplicit false

/-!
# TOML documents

A document is a list of lines: keys with values, and headers that open a table for the keys that
follow.  Reading it yields the entries of the outermost table, or nothing when the text is no
document: when a line cannot be read, when a key is given twice, or when a table is opened or
extended that is complete already.
-/

namespace RomCast.Toml

/-! ## Keys -/

/-- A character of a key without quotes. -/
def isKeyChar (c : Char) : Bool := c.isAlphanum || c = '-' || c = '_'

/-- A dotted key has fewer parts than this, and values are nested less deep. -/
def depthLimit : Nat := 80

/-- One part of a key. -/
def keyPart : Scan String := do
  let bare : Scan (List Char) := do return (← Scan.one isKeyChar) :: (← Scan.takeWhile isKeyChar)
  return String.ofList (← basicString <|> literalString <|> bare)

/-- A key: the parts before the last one, and the last one. -/
def dottedKey : Scan (List String × String) := do
  let parts ← Scan.separated '.' do
    space
    let part ← keyPart
    space
    return part
  match parts.getLast? with
  | none => failure
  | some last => if parts.length < depthLimit then return (parts.dropLast, last) else failure

/-! ## Values -/

/-- A value that holds no others. -/
def scalar : Scan Value :=
  (do return .string (← anyString)) <|>
  (do datetime; return .datetime) <|>
  (do float; return .float) <|>
  (do return .integer (← integer)) <|>
  (do Scan.exactly "true".toList; return .boolean true) <|>
  (do Scan.exactly "false".toList; return .boolean false)

/-- An array of values, behind its opening bracket. -/
def arrayRest (item : Scan Value) : Scan (List Value) := do
  let items ← Scan.maybe (Scan.separated ',' do
    spaceAndLines
    let value ← item
    spaceAndLines
    return value)
  if items.isSome then
    let _ ← Scan.optional [',']
  spaceAndLines
  Scan.char ']'
  return items.getD []

/-- A key and its value. -/
def keyValue (item : Scan Value) : Scan ((List String × String) × Value) := do
  let key ← dottedKey
  Scan.char '='
  space
  return (key, ← item)

/-- Put keys and values into a table. -/
def assignAll? (pairs : List ((List String × String) × Value)) (entries : Entries) :
    Option Entries :=
  pairs.foldlM (fun entries ((path, key), value) => Entries.assign? path key value entries) entries

/-- An inline table, behind its opening brace. -/
def inlineRest (item : Scan Value) : Scan Entries := do
  let pairs ← Scan.maybe (Scan.separated ',' do
    let pair ← keyValue item
    space
    return pair)
  space
  Scan.char '\x7d'
  match assignAll? (pairs.getD []) [] with
  | some entries => return entries
  | none => failure

/-- A value nested at most `depth` deep. -/
def value : Nat → Scan Value
  | 0 => scalar
  | depth + 1 => fun text =>
      match text with
      | '[' :: rest => (do return .array (← arrayRest (value depth)) : Scan Value) rest
      | '\x7b' :: rest =>
          (do return .table .inline (← inlineRest (value depth)) : Scan Value) rest
      | _ => scalar text

/-! ## Lines -/

/-- A line that says something. -/
inductive Line where
  | pair (path : List String) (key : String) (value : Value)
  | table (path : List String) (key : String)
  | arrayTable (path : List String) (key : String)

/-- A header, between so many brackets. -/
def header (brackets : Nat) : Scan (List String × String) := do
  Scan.exactly (List.replicate brackets '[')
  let key ← dottedKey
  Scan.exactly (List.replicate brackets ']')
  lineRest
  return key

/-- A line with everything on it; none when it says nothing. -/
def line : Scan (Option Line) := fun text =>
  match text with
  | [] => none
  | '#' :: _ => (do comment; lineEnd <|> Scan.atEnd; return none : Scan (Option Line)) text
  | '\n' :: _ => (do lineEnd; return none : Scan (Option Line)) text
  | '\r' :: _ => (do lineEnd; return none : Scan (Option Line)) text
  | '[' :: '[' :: _ =>
      (do
        let (path, key) ← header 2
        return some (.arrayTable path key) : Scan (Option Line)) text
  | '[' :: _ =>
      (do
        let (path, key) ← header 1
        return some (.table path key) : Scan (Option Line)) text
  | _ =>
      (do
        let ((path, key), value) ← keyValue (value (depthLimit - 1))
        lineRest
        return some (.pair path key value) : Scan (Option Line)) text

/-- All lines of a text, without a byte order mark at its front. -/
def lines : Scan (List Line) := do
  let _ ← Scan.optional ['\ufeff']
  space
  let found ← Scan.many do
    let found ← line
    space
    return found
  Scan.atEnd
  return found.filterMap id

/-! ## Documents -/

/-- The keys and values of the lines up to the next header, and the lines from there on. -/
def takePairs : List Line → List ((List String × String) × Value) × List Line
  | .pair path key value :: rest =>
      let (pairs, rest) := takePairs rest
      (((path, key), value) :: pairs, rest)
  | rest => ([], rest)

theorem length_takePairs_le (ls : List Line) : (takePairs ls).2.length ≤ ls.length := by
  fun_induction takePairs ls with
  | case1 => simp_all; omega
  | case2 => exact Nat.le_refl _

/-- The document that lines make up, behind what is there already. -/
def build? (entries : Entries) (ls : List Line) : Option Entries :=
  match ls with
  | [] => some entries
  | .pair path key value :: rest => do build? (← Entries.assign? path key value entries) rest
  | .table path key :: rest =>
      let body := takePairs rest
      do build? (← Entries.open? (tableAt? (assignAll? body.1)) path key entries) body.2
  | .arrayTable path key :: rest =>
      let body := takePairs rest
      do build? (← Entries.open? (tablesAt? (assignAll? body.1)) path key entries) body.2
termination_by ls.length
decreasing_by
  · exact Nat.lt_succ_self _
  · exact Nat.lt_succ_of_le (length_takePairs_le rest)
  · exact Nat.lt_succ_of_le (length_takePairs_le rest)

/-- The outermost table of a document. -/
def parse? (text : String) : Option Entries := do
  let (found, _) ← lines text.toList
  build? [] found

end RomCast.Toml
