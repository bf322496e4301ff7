import Stepwise.Value.Basic

namespace Stepwise.Script

/-- Every statement stands on a line.  Variables are named with their `$`; expressions are texts
that are parsed when the statement is carried out. -/
inductive Statement where
  | assign (line : Nat) (name expression : String)
  | declare (line : Nat) (name type expression : String)
  /-- Assigns a value that no expression can spell. -/
  | set (line : Nat) (name : String) (value : Value)
  | command (line : Nat) (name : String)
  /-- Counts a variable from the first to the last value, both included. -/
  | count (line : Nat) (variableName : String) (first last : Int) (body : List Statement)
  | loop (line : Nat) (body : List Statement)
  | call (line : Nat) (function : String) (arguments : List (String × String))
deriving Repr, BEq, Inhabited

structure Parameter where
  name : String
  /-- Only given by name, and without a value. -/
  isSwitch : Bool
deriving Repr, DecidableEq, Inhabited

structure Program where
  parameters : List Parameter := []
  body : List Statement
  /-- Of two functions of one name the later one counts. -/
  functions : List (String × List Statement) := []
deriving Repr, BEq, Inhabited

def Program.function? (p : Program) (name : String) : Option (List Statement) :=
  p.functions.reverse.lookup name

/-- A command that requests a break at the next statement. -/
def waitCommand : String := "Wait-Debugger"

def crashCommand : String := "Invoke-EnginePanic"

end Stepwise.Script
