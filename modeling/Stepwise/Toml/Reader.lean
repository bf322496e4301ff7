namespace Stepwise.Toml

/-- What is read, and the characters after it. -/
abbrev Reader (α : Type) := StateT (List Char) Option α

namespace Reader

variable {α : Type}

def one (p : Char → Bool) : Reader Char
  | c :: cs => if p c then some (c, cs) else none
  | [] => none

def exactly : List Char → Reader Unit
  | [], cs => some ((), cs)
  | e :: es, c :: cs => if e = c then exactly es cs else none
  | _ :: _, [] => none

/-- As many characters of a kind as there are. -/
def span (p : Char → Bool) : Reader (List Char) := fun cs =>
  some (cs.takeWhile p, cs.dropWhile p)

def attempt (r : Reader α) : Reader (Option α) := fun cs =>
  match r cs with
  | some (a, rest) => some (some a, rest)
  | none => some (none, cs)

/-- As many items as can be read.  One that takes nothing off the text is the last. -/
def many (r : Reader α) (cs : List Char) : Option (List α × List Char) :=
  match r cs with
  | none => some ([], cs)
  | some (a, rest) =>
    if rest.length < cs.length then (many r rest).map fun (as, left) => (a :: as, left)
    else some ([a], rest)
termination_by cs.length

/-- One item or more with a separator between each two. -/
def separated (item : Reader α) (separator : Reader Unit) : Reader (List α) := do
  let first ← item
  let others ← many (do separator; item)
  return first :: others

end Reader

open Reader

def isBlank (c : Char) : Bool :=
  c == ' ' || c == '\t'

/-- Everything but control characters; a tab is allowed. -/
def isPrintable (c : Char) : Bool :=
  c == '\t' || (' ' ≤ c && c != '\x7f')

def blanks : Reader Unit := do
  let _ ← span isBlank

/-- A line feed, with or without a carriage return in front of it. -/
def newline : Reader Unit
  | '\n' :: cs => some ((), cs)
  | '\r' :: '\n' :: cs => some ((), cs)
  | _ => none

theorem length_newline_lt {cs rest : List Char} {u : Unit} (h : newline cs = some (u, rest)) :
    rest.length < cs.length := by
  unfold newline at h
  split at h <;> simp only [Option.some.injEq, Prod.mk.injEq, reduceCtorEq] at h
  · exact h.2 ▸ Nat.lt_succ_self _
  · exact h.2 ▸ Nat.lt_succ_of_lt (Nat.lt_succ_self _)

/-- A comment goes as far as its line. -/
def comment : Reader Unit := do
  exactly ['#']
  let _ ← span isPrintable

/-- Nothing, at the end of the text. -/
def endOfText : Reader Unit
  | [] => some ((), [])
  | _ :: _ => none

/-- What may stand behind the content of a line. -/
def lineEnd : Reader Unit := do
  blanks
  let _ ← attempt comment
  newline <|> endOfText

/-- What may stand around the items of an array. -/
def gap : Reader Unit := do
  let _ ← many (newline <|> comment <|> do let _ ← one isBlank)

end Stepwise.Toml
