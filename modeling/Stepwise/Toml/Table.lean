namespace Stepwise.Toml

/-- How a table came to be. -/
inductive Origin where
  /-- By a header of its own, or as the top of the document. -/
  | header
  /-- By a longer header that leads through it. -/
  | implied
  /-- By a dotted key that leads through it. -/
  | dotted
  /-- By braces around its content; nothing can be added. -/
  | closed
deriving Repr, DecidableEq

/-- A value of a document.  Fractions, dates and times are checked when they are read and not
kept. -/
inductive Node where
  | text (s : String)
  | integer (n : Int)
  | boolean (b : Bool)
  | fraction
  | moment
  | array (items : List Node)
  | table (origin : Origin) (entries : List (String × Node))
  /-- Tables with headers of one name: the last one, and those before it from the last on. -/
  | tables (last : List (String × Node)) (earlier : List (List (String × Node)))
deriving Repr

abbrev Entries := List (String × Node)

namespace Entries

/-- The entries with another value for a key. -/
def put (key : String) (value : Node) : Entries → Entries
  | [] => [(key, value)]
  | (k, v) :: rest => if k = key then (k, value) :: rest else (k, v) :: put key value rest

/-- What leads through tables: a header, or a key of several parts. -/
inductive Walk where
  | header
  | dotted
deriving Repr, DecidableEq

/-- The origin of tables that a walk leads through for the first time. -/
def Walk.origin : Walk → Origin
  | .header => .implied
  | .dotted => .dotted

/-- A dotted key only leads through tables without a header of their own. -/
def Walk.passes : Walk → Origin → Bool
  | _, .closed => false
  | .header, _ => true
  | .dotted, .header => false
  | .dotted, _ => true

/-- Changes the table that a path leads to; of several tables of one name it is the last one. -/
def alter (w : Walk) (change : Origin → Entries → Option Entries) :
    List String → Origin → Entries → Option Entries
  | [], origin, entries => change origin entries
  | key :: path, _, entries =>
    match entries.lookup key with
    | none => do
      let inner ← alter w change path w.origin []
      some (put key (.table w.origin inner) entries)
    | some (.table origin inner) =>
      if w.passes origin then do
        let inner ← alter w change path origin inner
        some (put key (.table origin inner) entries)
      else none
    | some (.tables last earlier) => do
      let last ← alter w change path .header last
      some (put key (.tables last earlier) entries)
    | some _ => none

/-- Adds a value under a key of one part or more.  The table in front of the last part must have
come to be by dotted keys, if there are parts in front of it. -/
def insert (path : List String) (key : String) (value : Node) (origin : Origin)
    (entries : Entries) : Option Entries :=
  alter .dotted
    (fun reached entries =>
      if (reached == .dotted) = path.isEmpty then none
      else if (entries.lookup key).isSome then none
      else some (put key value entries))
    path origin entries

/-- Begins the table of a header. -/
def openTable (path : List String) (key : String) (entries : Entries) : Option Entries :=
  alter .header
    (fun _ entries =>
      match entries.lookup key with
      | none => some (put key (.table .header []) entries)
      | some (.table .implied inner) => some (put key (.table .header inner) entries)
      | some _ => none)
    path .header entries

/-- Begins one more of the tables of a name. -/
def openTables (path : List String) (key : String) (entries : Entries) : Option Entries :=
  alter .header
    (fun _ entries =>
      match entries.lookup key with
      | none => some (put key (.tables [] []) entries)
      | some (.tables last earlier) => some (put key (.tables [] (last :: earlier)) entries)
      | some _ => none)
    path .header entries

end Entries
end Stepwise.Toml
