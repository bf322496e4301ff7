namespace Stepwise

/-- Operators of other languages with the script's own; the longer ones come first. -/
def foreignOperators : List (String × String) :=
  [("==", "-eq"), ("!=", "-ne"), (">=", "-ge"), ("<=", "-le"), (">", "-gt"), ("<", "-lt")]

/-- The foreign operator with which the text begins. -/
def foreignOperator? (cs : List Char) : Option (String × String) :=
  foreignOperators.find? fun (op, _) => op.toList.isPrefixOf cs

/-- The first foreign operator outside of literals; `quote` is the quote of the literal in which
the text starts. -/
def findForeign : Option Char → List Char → Option (String × String)
  | _, [] => none
  | some q, c :: cs => findForeign (if c = q then none else some q) cs
  | none, c :: cs =>
    if c = '\x27' ∨ c = '\x22' then findForeign (some c) cs
    else
      match foreignOperator? (c :: cs) with
      | some found => some found
      | none => findForeign none cs

/-- Advice on a condition that uses an operator of another language. -/
def operatorHint (condition : String) : Option String :=
  (findForeign none condition.toList).map fun (op, own) =>
    "Use '" ++ own ++ "' instead of '" ++ op ++ "'."

end Stepwise
