import Stepwise.Expression.Basic
import Stepwise.Text.Ascii
import Stepwise.Text.Blank
import Stepwise.Text.Integer
import Stepwise.Text.WordCharacter

namespace Stepwise
open Text

inductive Token where
  | int (value : Int64)
  | str (text : String)
  | var (name : String)
  | type (name : String)
  | op (op : BinaryOp)
  | not
  | openParen
  | closeParen
deriving Repr, DecidableEq

/-- A token with the characters it was read from: messages quote them, and blanks apart the lexemes
of a text make up the text again. -/
structure Lexeme where
  token : Token
  text : List Char
deriving Repr, DecidableEq

namespace Lexeme

def spelling (l : Lexeme) : String :=
  String.ofList l.text

/-- The operators spelled as a dash and a word, in any case. -/
def wordOperators : List (String × Token) :=
  [("-eq", .op .eq), ("-ne", .op .ne), ("-gt", .op .gt), ("-ge", .op .ge), ("-lt", .op .lt),
   ("-le", .op .le), ("-and", .op .and), ("-or", .op .or), ("-not", .not)]

def symbols : List (Char × Token) :=
  [('+', .op .add), ('-', .op .sub), ('*', .op .mul), ('/', .op .div), ('%', .op .mod),
   ('(', .openParen), (')', .closeParen)]

/-- Operators of other languages: a run of these characters is refused as a whole. -/
def isForeign (c : Char) : Bool :=
  "=!<>&|".toList.contains c

def isVariableCharacter (c : Char) : Bool :=
  isWordCharacter c || c == '_' || c == ':'

def isTypeCharacter (c : Char) : Bool :=
  isWordCharacter c || c == '.' || c == '_'

def isQuote (c : Char) : Bool :=
  c == '\x27' || c == '\x22'

abbrev Read := Except ParseError (Lexeme × List Char)

def number (c : Char) (cs : List Char) : Read :=
  let digits := c :: cs.takeWhile Char.isDigit
  match readInt64? digits with
  | some n => .ok (⟨.int n, digits⟩, cs.dropWhile Char.isDigit)
  | none => .error (.numberTooLarge (String.ofList digits))

/-- A string ends at the next quote of the kind it started with. -/
def quoted (c : Char) (cs : List Char) : Read :=
  let body := cs.takeWhile (· != c)
  match cs.dropWhile (· != c) with
  | [] => .error (.unterminated c)
  | _ :: rest => .ok (⟨.str (String.ofList body), c :: body ++ [c]⟩, rest)

def variableName (cs : List Char) : Read :=
  match cs.takeWhile isVariableCharacter with
  | [] => .error (.unexpected "$")
  | name =>
    .ok (⟨.var (String.ofList ('$' :: name)), '$' :: name⟩, cs.dropWhile isVariableCharacter)

def typeName (cs : List Char) : Read :=
  let name := cs.takeWhile isTypeCharacter
  match cs.dropWhile isTypeCharacter with
  | ']' :: rest =>
    if name = [] then .error .unclosedType
    else .ok (⟨.type (String.ofList name), '[' :: name ++ [']']⟩, rest)
  | _ => .error .unclosedType

def wordOperator (cs : List Char) : Read :=
  let word := '-' :: cs.takeWhile Char.isAlpha
  match wordOperators.lookup (foldCase (String.ofList word)) with
  | some token => .ok (⟨token, word⟩, cs.dropWhile Char.isAlpha)
  | none => .error (.unexpected (String.ofList word))

def symbol (c : Char) (cs : List Char) : Read :=
  match symbols.lookup c with
  | some token => .ok (⟨token, [c]⟩, cs)
  | none =>
    .error (.unexpected
      (String.ofList (c :: if isForeign c then cs.takeWhile isForeign else [])))

/-- The lexeme that starts with `c`, and what follows it. -/
def read (c : Char) (cs : List Char) : Read :=
  if c.isDigit then number c cs
  else if isQuote c then quoted c cs
  else if c = '$' then variableName cs
  else if c = '[' then typeName cs
  else if c = '-' ∧ (cs.head?.any Char.isAlpha) then wordOperator cs
  else symbol c cs

theorem length_dropWhile_le (p : Char → Bool) (cs : List Char) :
    (cs.dropWhile p).length ≤ cs.length :=
  (List.dropWhile_suffix p).length_le

theorem length_read_le {c : Char} {cs : List Char} {l : Lexeme} {rest : List Char}
    (h : read c cs = .ok (l, rest)) : rest.length ≤ cs.length := by
  have hd := fun p => length_dropWhile_le p cs
  unfold read at h
  split at h
  · simp only [number] at h
    split at h <;> simp only [Except.ok.injEq, Prod.mk.injEq, reduceCtorEq] at h
    exact h.2 ▸ hd _
  · split at h
    · simp only [quoted] at h
      split at h
      · simp at h
      · next _ heq =>
        simp only [Except.ok.injEq, Prod.mk.injEq] at h
        have := hd (· != c)
        rw [heq, List.length_cons] at this
        exact h.2 ▸ Nat.le_of_succ_le this
    · split at h
      · simp only [variableName] at h
        split at h <;> simp only [Except.ok.injEq, Prod.mk.injEq, reduceCtorEq] at h
        exact h.2 ▸ hd _
      · split at h
        · simp only [typeName] at h
          split at h
          · next _ heq =>
            split at h <;> simp only [Except.ok.injEq, Prod.mk.injEq, reduceCtorEq] at h
            have := hd isTypeCharacter
            rw [heq, List.length_cons] at this
            exact h.2 ▸ Nat.le_of_succ_le this
          · simp at h
        · split at h
          · simp only [wordOperator] at h
            split at h <;> simp only [Except.ok.injEq, Prod.mk.injEq, reduceCtorEq] at h
            exact h.2 ▸ hd _
          · simp only [symbol] at h
            split at h <;> simp only [Except.ok.injEq, Prod.mk.injEq, reduceCtorEq] at h
            exact Nat.le_of_eq (congrArg List.length h.2.symm)

end Lexeme

/-- The lexemes of a text; blanks only separate them. -/
def tokenize : List Char → Except ParseError (List Lexeme)
  | [] => .ok []
  | c :: cs =>
    if isBlank c then tokenize cs
    else
      match _h : Lexeme.read c cs with
      | .error e => .error e
      | .ok (l, rest) => (tokenize rest).map (l :: ·)
termination_by cs => cs.length
decreasing_by
  · simp
  · exact Nat.lt_succ_of_le (Lexeme.length_read_le _h)

end Stepwise
