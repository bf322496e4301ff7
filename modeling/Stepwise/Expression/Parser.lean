import Stepwise.Expression.Token

namespace Stepwise

/-- The tiers of operators, the loosest first. -/
def BinaryOp.tiers : List (List BinaryOp) :=
  [[.and, .or], [.eq, .ne, .gt, .ge, .lt, .le], [.add, .sub], [.mul, .div, .mod]]

/-- The operand that a token is by itself. -/
def Token.atom? : Token → Option Expr
  | .int n => some (.int n)
  | .str s => some (.str s)
  | .var name => some (.var name)
  | _ => none

/-- What a token makes of the operand after it. -/
def Token.wrapper? : Token → Option (Expr → Expr)
  | .op .sub => some .negate
  | .not => some .not
  | .type name => some (.cast name)
  | _ => none

namespace Expr

/-- An expression read from the front of the lexemes, and the lexemes that are left. -/
abbrev Parsed (ls : List Lexeme) :=
  Except ParseError (Expr × { rest : List Lexeme // rest.length < ls.length })

/-- The operator that a lexeme spells, if it is one of those given. -/
def operator? (ops : List BinaryOp) (l : Lexeme) : Option BinaryOp :=
  match l.token with
  | .op op => if op ∈ ops then some op else none
  | _ => none

/-- An operator needs something after it. -/
def needOperand (operator : Lexeme) (rest : List Lexeme) : Except ParseError Unit :=
  if rest = [] then .error (.missingOperand operator.spelling) else .ok ()

mutual

/-- Operands of the tighter tiers joined by operators of the first tier. -/
def parseTier (tiers : List (List BinaryOp)) (ls : List Lexeme) : Parsed ls :=
  match tiers with
  | [] => parseUnary ls
  | ops :: tighter =>
    match parseTier tighter ls with
    | .error e => .error e
    | .ok (left, rest) =>
      match parseChain ops tighter left rest.1 with
      | .error e => .error e
      | .ok (e, after) => .ok (e, ⟨after.1, Nat.lt_of_le_of_lt after.2 rest.2⟩)
termination_by (ls.length, tiers.length + 1)
decreasing_by
  all_goals simp_wf
  · exact Prod.Lex.right _ (by simp)
  · exact Prod.Lex.right _ (by simp)
  · exact Prod.Lex.left _ _ rest.2

/-- As many operators of one tier, each with its right operand, as follow the left operand. -/
def parseChain (ops : List BinaryOp) (tighter : List (List BinaryOp)) (left : Expr)
    (ls : List Lexeme) :
    Except ParseError (Expr × { rest : List Lexeme // rest.length ≤ ls.length }) :=
  match ls with
  | [] => .ok (left, ⟨[], Nat.le_refl _⟩)
  | l :: rest =>
    match operator? ops l with
    | none => .ok (left, ⟨l :: rest, Nat.le_refl _⟩)
    | some op =>
      match needOperand l rest with
      | .error e => .error e
      | .ok () =>
        match parseTier tighter rest with
        | .error e => .error e
        | .ok (right, after) =>
          match parseChain ops tighter (.binary op left right) after.1 with
          | .error e => .error e
          | .ok (e, last) =>
            .ok (e, ⟨last.1, Nat.le_succ_of_le (Nat.le_of_lt (Nat.lt_of_le_of_lt last.2 after.2))⟩)
termination_by (ls.length, 0)
decreasing_by
  all_goals simp_wf
  · exact Prod.Lex.left _ _ (Nat.lt_succ_self _)
  · exact Prod.Lex.left _ _ (Nat.lt_succ_of_lt after.2)

/-- An operand: an atom, an operand behind a sign, a negation or a cast, or an expression in
parentheses. -/
def parseUnary (ls : List Lexeme) : Parsed ls :=
  match ls with
  | [] => .error .missingExpression
  | l :: rest =>
    match l.token.atom? with
    | some e => .ok (e, ⟨rest, Nat.lt_succ_self _⟩)
    | none =>
      match l.token.wrapper? with
      | some wrap =>
        match needOperand l rest with
        | .error e => .error e
        | .ok () =>
          match parseUnary rest with
          | .error e => .error e
          | .ok (e, after) => .ok (wrap e, ⟨after.1, Nat.lt_succ_of_lt after.2⟩)
      | none =>
        if l.token = .openParen then
          match parseTier BinaryOp.tiers rest with
          | .error e => .error e
          | .ok (e, ⟨closing :: after, h⟩) =>
            if closing.token = .closeParen then
              .ok (e, ⟨after, Nat.lt_succ_of_lt (Nat.lt_of_succ_lt h)⟩)
            else .error .unclosedParenthesis
          | .ok (_, ⟨[], _⟩) => .error .unclosedParenthesis
        else .error (.unexpected l.spelling)
termination_by (ls.length, 0)
decreasing_by
  all_goals exact Prod.Lex.left _ _ (Nat.lt_succ_self _)

end

/-- The expression that the lexemes make up as a whole. -/
def ofLexemes (ls : List Lexeme) : Except ParseError Expr :=
  match parseTier BinaryOp.tiers ls with
  | .error e => .error e
  | .ok (e, ⟨[], _⟩) => .ok e
  | .ok (_, ⟨l :: _, _⟩) => .error (.unexpected l.spelling)

def parse (source : String) : Except ParseError Expr :=
  (tokenize source.toList).bind ofLexemes

end Expr
end Stepwise
