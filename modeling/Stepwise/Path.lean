import Stepwise.Text.Ascii

namespace Stepwise

/-- A file path as it is spelled. -/
structure Path where
  text : String
deriving Repr, DecidableEq, Inhabited

namespace Path

/-- The pieces of a text between its separators; there is always at least one. -/
def segments : List Char → List (List Char)
  | [] => [[]]
  | '/' :: cs => [] :: segments cs
  | c :: cs =>
    match segments cs with
    | [] => [[c]]
    | s :: ss => (c :: s) :: ss

/-- A piece that names nothing. -/
def isFiller (segment : List Char) : Bool :=
  segment == [] || segment == ['.']

inductive Component where
  | root
  | here
  | up
  | name (characters : List Char)
deriving Repr, DecidableEq

def Component.ofSegment (segment : List Char) : Component :=
  if segment = ['.', '.'] then .up else .name segment

/-- Where a component stands in the order of paths: roots, `.`, `..`, then names by code points. -/
def Component.key : Component → List Nat
  | .root => [0]
  | .here => [1]
  | .up => [2]
  | .name cs => 3 :: cs.map Char.toNat

/-- A path taken apart: whether it starts at the root, whether it is relative and starts with `.`,
and the pieces that follow, fillers included. -/
structure Spelling where
  root : Bool
  here : Bool
  body : List (List Char)
deriving Repr, DecidableEq

def Spelling.ofChars : List Char → Spelling
  | '/' :: cs => ⟨true, false, segments cs⟩
  | cs =>
    match segments cs with
    | ['.'] :: rest => ⟨false, true, rest⟩
    | body => ⟨false, false, body⟩

def spelling (p : Path) : Spelling :=
  .ofChars p.text.toList

def Spelling.components (s : Spelling) : List Component :=
  (if s.root then [.root] else []) ++ (if s.here then [.here] else []) ++
    (s.body.filter (!isFiller ·)).map .ofSegment

def components (p : Path) : List Component :=
  p.spelling.components

/-- Two paths name one file.  Repeated separators, a trailing one and the component `.` do not
count, except for `.` at the front of a relative path. -/
def same (p q : Path) : Bool :=
  p.components == q.components

theorem same_iff {p q : Path} : p.same q = true ↔ p.components = q.components := by
  simp [same]

@[simp] theorem same_self (p : Path) : p.same p = true := by
  simp [same]

def precedes (p q : Path) : Bool :=
  (compare (p.components.map Component.key) (q.components.map Component.key)).isLE

def joinSegments : List (List Char) → List Char
  | [] => []
  | [s] => s
  | s :: ss => s ++ '/' :: joinSegments ss

def Spelling.render (s : Spelling) : Path :=
  ⟨String.ofList ((if s.root then ['/'] else []) ++
    joinSegments ((if s.here then [['.']] else []) ++ s.body))⟩

/-- The pieces without the fillers at their end. -/
def trimEnd (body : List (List Char)) : List (List Char) :=
  (body.reverse.dropWhile isFiller).reverse

/-- The path without its last component, spelled as it was up to there; nothing is above a root
and above the empty path. -/
def parent? (p : Path) : Option Path :=
  let s := p.spelling
  match (trimEnd s.body).reverse with
  | _ :: above => some { s with body := trimEnd above.reverse }.render
  | [] => if s.here then some ⟨""⟩ else none

def isAbsolute (p : Path) : Bool :=
  p.spelling.root

/-- The second path as seen from the first one. -/
def join (base p : Path) : Path :=
  if p.isAbsolute then p
  else if base.text = "" ∨ base.text.toList.getLast? = some '/' then ⟨base.text ++ p.text⟩
  else ⟨base.text ++ "/" ++ p.text⟩

/-- A leading `~` stands for the home directory. -/
def expandHome (home p : Path) : Path :=
  match p.spelling with
  | ⟨false, false, ['~'] :: rest⟩ =>
    home.join ⟨String.ofList (joinSegments (trimEnd (rest.dropWhile isFiller)))⟩
  | _ => p

end Path

/-- The home directory, as far as it is known. -/
inductive Home where
  | at (directory : Path)
  | unknown
deriving Repr, DecidableEq

/-- Where a path leads: from the home directory if it starts with `~`, as it is if that is
unknown. -/
def Home.expandHome (home : Home) (p : Path) : Path :=
  match home with
  | .at directory => directory.expandHome p
  | .unknown => p

end Stepwise
