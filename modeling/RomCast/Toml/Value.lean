set_option autoImplicit false

/-!
# TOML values

What a document says, and how its tables came to be.  Where a table came from decides what may
still be added to it: a table that was only passed through on the way to another can be opened
later, one that dotted keys made can be extended by dotted keys, and an inline table is complete
from the start.
-/

namespace RomCast.Toml

/-- How a table came to be. -/
inductive Origin where
  /-- It has a header of its own, or is the document. -/
  | header
  /-- A header of a table below it passed through it. -/
  | passed
  /-- A dotted key passed through it. -/
  | dotted
  /-- It was written out as a value. -/
  | inline
  deriving DecidableEq, Repr, Inhabited

/-- A value.  Floats, dates and times are checked when they are read, and not kept. -/
inductive Value where
  | string (text : String)
  | integer (value : Int)
  | float
  | boolean (value : Bool)
  | datetime
  | array (items : List Value)
  | table (origin : Origin) (entries : List (String × Value))
  /-- An array that grows by one table with every header: the last table, and the ones before it,
  the latest first. -/
  | tables (earlier : List (List (String × Value))) (last : List (String × Value))
  deriving Inhabited

/-- The keys of a table with their values. -/
abbrev Entries : Type := List (String × Value)

namespace Entries

/-- The value of a key. -/
def find? (entries : Entries) (key : String) : Option Value := entries.lookup key

/-- Set the value of a key. -/
def put : Entries → String → Value → Entries
  | [], key, value => [(key, value)]
  | (k, v) :: rest, key, value =>
      if k = key then (key, value) :: rest else (k, v) :: put rest key value

/-- Set the value of a key that has none. -/
def add? (entries : Entries) (key : String) (value : Value) : Option Entries :=
  match Entries.find? entries key with
  | some _ => none
  | none => some (Entries.put entries key value)

/-! ## Keys and headers -/

/-- Set the value of a dotted key: `path` leads to the table that holds `key`.  Tables on the way
are made as needed.  The last of them must have been made by dotted keys, the others must not have a
header of their own. -/
def assign? : List String → String → Value → Entries → Option Entries
  | [], key, value, entries => Entries.add? entries key value
  | part :: path, key, value, entries =>
      match Entries.find? entries part with
      | none => do
          let made ← assign? path key value []
          return Entries.put entries part (.table .dotted made)
      | some (.table .dotted sub) => do
          let changed ← assign? path key value sub
          return Entries.put entries part (.table .dotted changed)
      | some (.table .passed sub) =>
          if path.isEmpty then none
          else do
            let changed ← assign? path key value sub
            return Entries.put entries part (.table .passed changed)
      | some (.tables earlier last) =>
          if path.isEmpty then none
          else do
            let changed ← assign? path key value last
            return Entries.put entries part (.tables earlier changed)
      | some _ => none

/-- Change the value of a header's last key: `path` leads to the table that holds it, and of an
array of tables to the last one.  Tables on the way are made as needed. -/
def open? (change : Option Value → Option Value) : List String → String → Entries → Option Entries
  | [], key, entries => do return Entries.put entries key (← change (Entries.find? entries key))
  | part :: path, key, entries =>
      match Entries.find? entries part with
      | none => do
          let made ← open? change path key []
          return Entries.put entries part (.table .passed made)
      | some (.table .inline _) => none
      | some (.table origin sub) => do
          let changed ← open? change path key sub
          return Entries.put entries part (.table origin changed)
      | some (.tables earlier last) => do
          let changed ← open? change path key last
          return Entries.put entries part (.tables earlier changed)
      | some _ => none

end Entries

/-- The table that a header opens: a new one, or one that was only passed through. -/
def tableAt? (fill : Entries → Option Entries) : Option Value → Option Value
  | none => do return .table .header (← fill [])
  | some (.table .passed sub) => do return .table .header (← fill sub)
  | some _ => none

/-- The array of tables that a header extends: a new one, or one that a header began. -/
def tablesAt? (fill : Entries → Option Entries) : Option Value → Option Value
  | none => do return .tables [] (← fill [])
  | some (.tables earlier last) => do return .tables (last :: earlier) (← fill [])
  | some _ => none

end RomCast.Toml
