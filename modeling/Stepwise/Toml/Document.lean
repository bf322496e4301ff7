import Stepwise.Toml.Value

namespace Stepwise.Toml
open Reader

inductive Statement where
  | pair (pair : Pair)
  | table (path : List String) (key : String)
  /-- The header of one of the tables of a name. -/
  | tables (path : List String) (key : String)

namespace Statement

/-- A key between brackets. -/
def header (opening closing : List Char) : Reader (List String × String) := do
  exactly opening
  let parts ← keyParts
  exactly closing
  (splitLast parts : Reader (List String × String))

def read : Reader Statement :=
  (do let (path, key) ← header ['[', '['] [']', ']']; return .tables path key) <|>
  (do let (path, key) ← header ['['] [']']; return .table path key) <|>
  (do return .pair (← Toml.pair readValue))

/-- A line with at most one statement. -/
def line : Reader (Option Statement) := do
  blanks
  let statement ← attempt read
  lineEnd
  return statement

end Statement

/-- The statements of a text; a byte order mark may come first. -/
def statements? (cs : List Char) : Option (List Statement) :=
  match many Statement.line (match cs with | '\uFEFF' :: rest => rest | _ => cs) with
  | some (lines, []) => some (lines.filterMap id)
  | _ => none

/-- A document that has been read in part. -/
structure Document where
  entries : Entries := []
  /-- The table that pairs are added to. -/
  current : List String := []

namespace Document

/-- The document with one more statement. -/
def add (d : Document) : Statement → Option Document
  | .pair p => do
    let entries ← Entries.alter .header (fun origin entries =>
      entries.insert p.path p.key p.value origin) d.current .header d.entries
    return { d with entries }
  | .table path key => do
    return { entries := ← d.entries.openTable path key, current := path ++ [key] }
  | .tables path key => do
    return { entries := ← d.entries.openTables path key, current := path ++ [key] }

def addAll : List Statement → Document → Option Document
  | [], d => some d
  | s :: rest, d => do addAll rest (← d.add s)

end Document

def parse? (text : String) : Option Entries := do
  let statements ← statements? text.toList
  return (← Document.addAll statements {}).entries

end Stepwise.Toml
