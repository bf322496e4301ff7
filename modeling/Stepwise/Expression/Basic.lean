namespace Stepwise

inductive BinaryOp where
  | add | sub | mul | div | mod
  | eq | ne | gt | ge | lt | le
  | and | or
deriving Repr, DecidableEq

/-- A variable is named with its leading `$`, a type without its brackets. -/
inductive Expr where
  | int (value : Int64)
  | str (text : String)
  | var (name : String)
  | negate (operand : Expr)
  | not (operand : Expr)
  | cast (type : String) (operand : Expr)
  | binary (op : BinaryOp) (left right : Expr)
deriving Repr, DecidableEq

inductive ParseError where
  | numberTooLarge (digits : String)
  | unterminated (quote : Char)
  | unexpected (token : String)
  | unclosedType
  | missingOperand (operator : String)
  | unclosedParenthesis
  | missingExpression
deriving Repr, DecidableEq

def ParseError.message : ParseError → String
  | .numberTooLarge digits => "The number '" ++ digits ++ "' is too large."
  | .unterminated quote => "The string is missing the terminator: " ++ quote.toString ++ "."
  | .unexpected token => "Unexpected token '" ++ token ++ "' in expression or statement."
  | .unclosedType => "Missing ']' after type name."
  | .missingOperand operator =>
    "You must provide a value expression following the '" ++ operator ++ "' operator."
  | .unclosedParenthesis => "Missing closing ')' in expression."
  | .missingExpression => "Missing expression."

end Stepwise
