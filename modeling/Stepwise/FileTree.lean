import Stepwise.Path

namespace Stepwise

/-- What one may do with a file. -/
structure Access where
  readable : Bool := true
  writable : Bool := true
deriving Repr, DecidableEq

inductive FileEntry where
  | directory
  | file (content : ByteArray) (access : Access)
  /-- Neither of them, such as a device.  It may take what is written; nothing is kept of that. -/
  | special (accepts : Bool)

/-- The names on the way from the top. -/
abbrev FileLocation := List (List Char)

/-- The entries below the top, which is a directory itself. -/
structure FileTree where
  entries : List (FileLocation × FileEntry) := []
  /-- What one may do with the files that one makes. -/
  fresh : Access := {}

namespace FileTree

def get? (t : FileTree) (l : FileLocation) : Option FileEntry :=
  if l = [] then some .directory else t.entries.lookup l

/-- The tree with an entry at a location, in the place of the one before. -/
def put (t : FileTree) (l : FileLocation) (e : FileEntry) : FileTree :=
  { t with entries := (l, e) :: t.entries.filter (·.1 != l) }

/-- Paths have fewer than 4096 bytes, of which none is zero; anything else leads nowhere. -/
def isPath (p : Path) : Bool :=
  p.text.utf8ByteSize < 4096 && !p.text.toList.contains '\x00'

/-- Names have at most 255 bytes. -/
def isName (name : List Char) : Bool :=
  (String.ofList name).utf8ByteSize ≤ 255

/-- Where components lead from a directory, and what is there; only the last one may be missing. -/
def follow (t : FileTree) : FileLocation → List Path.Component →
    Option (FileLocation × Option FileEntry)
  | l, [] => some (l, some .directory)
  | _, .root :: cs => t.follow [] cs
  | l, .here :: cs => t.follow l cs
  | l, .up :: cs => t.follow l.dropLast cs
  | l, .name n :: cs =>
    if isName n then
      match t.get? (l ++ [n]) with
      | some .directory => t.follow (l ++ [n]) cs
      | e => if cs = [] then some (l ++ [n], e) else none
    else none

/-- A path that ends in a separator or in `.` only stands for directories. -/
def isDirectoryPath (p : Path) : Bool :=
  p.spelling.body.getLast?.any Path.isFiller

def isFilePath (p : Path) : Bool :=
  isPath p && !isDirectoryPath p

/-- What a path stands for, if anything. -/
def find? (t : FileTree) (p : Path) : Option FileEntry :=
  if isPath p then
    match t.follow [] p.components with
    | some (_, some .directory) => some .directory
    | some (_, found) => if isDirectoryPath p then none else found
    | none => none
  else none

/-- Writes a file into a directory that exists, over an older file if there is one. -/
def write? (t : FileTree) (p : Path) (content : ByteArray) : Option FileTree :=
  if isFilePath p then
    match t.follow [] p.components with
    | some (_, some .directory) => none
    | some (l, some (.file _ access)) =>
      if access.writable then some (t.put l (.file content access)) else none
    | some (_, some (.special accepts)) => if accepts then some t else none
    | some (l, none) => some (t.put l (.file content t.fresh))
    | none => none
  else none

/-- Makes the directories that are missing on a way, and says whether the way then leads through
directories only. -/
def makeWay (t : FileTree) : FileLocation → List Path.Component → Bool × FileTree
  | _, [] => (true, t)
  | _, .root :: cs => t.makeWay [] cs
  | l, .here :: cs => t.makeWay l cs
  | l, .up :: cs => t.makeWay l.dropLast cs
  | l, .name n :: cs =>
    if isName n then
      match t.get? (l ++ [n]) with
      | some .directory => t.makeWay (l ++ [n]) cs
      | some _ => (false, t)
      | none => (t.put (l ++ [n]) .directory).makeWay (l ++ [n]) cs
    else (false, t)

def hasDirectory (t : FileTree) (p : Path) : Bool :=
  match t.follow [] p.components with
  | some (_, some .directory) => true
  | _ => false

/-- A path that ends in `.`, separators aside, is inside the directory that it stands for. -/
def isInside (p : Path) : Bool :=
  (p.spelling.body.reverse.takeWhile Path.isFiller).contains ['.']

/-- Makes a directory and those above it.  A path into the directory itself makes only those
above. -/
def makeDirectories (t : FileTree) (p : Path) : Bool × FileTree :=
  if !isPath p then (false, t)
  else if isInside p then
    let (made, t) := t.makeWay [] p.components.dropLast
    (made && t.hasDirectory p, t)
  else t.makeWay [] p.components

end FileTree
end Stepwise
