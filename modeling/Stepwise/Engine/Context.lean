import Stepwise.Engine.Description
import Stepwise.Engine.Error
import Stepwise.Path

namespace Stepwise

/-- The number by which an engine knows a breakpoint.  Engines have 32 bits for it; it is assumed
that an engine registers fewer than 2^32 breakpoints, so that no number comes round again. -/
abbrev EngineId := Nat

/-- The variables of a frame (frame 0 is the innermost), of the script that owns a frame, or of
all scripts. -/
inductive Scope where
  | locals (frame : Nat)
  | script (frame : Nat)
  | global
deriving Repr, DecidableEq

/-- Which breakpoints are cleared or listed: those of one file, or those on commands. -/
inductive BreakpointScope where
  | file (path : Path)
  | commands
deriving Repr, DecidableEq

inductive Location where
  | line (path : Path) (line : Nat) (column : Option Nat)
  | command (name : String)
deriving Repr, DecidableEq

/-- A breakpoint belongs to the scope of its file, however the file is spelled, or to the
commands. -/
def Location.isIn : Location → BreakpointScope → Bool
  | .line path _ _, .file file => path.same file
  | .command _, .commands => true
  | _, _ => false

structure EngineBreakpoint where
  id : EngineId
  location : Location
  condition : Option String
  hitCount : Option Nat
deriving Repr, DecidableEq

structure EngineFrame where
  functionName : String
  /-- Code outside a file has none. -/
  scriptPath : Option Path
  line : Nat
  column : Nat
deriving Repr, DecidableEq

structure EngineVariable where
  name : String
  value : Description
  declaredType : Option String
  automatic : Bool
deriving Repr, BEq

structure EngineChild where
  key : ChildKey
  value : Description
deriving Repr, BEq

/-- An operation of an engine: it answers and leaves a state, or it takes the engine's thread
down. -/
abbrev EngineM (σ α : Type) : Type := OptionT (StateM σ) α

/-- The operations of an engine whose state is `σ`. -/
structure Context (σ : Type) where
  setLineBreakpoint (path : Path) (line : Nat) (column : Option Nat) (condition : Option String)
    (hitCount : Option Nat) : EngineM σ (Except EngineError EngineId)
  setCommandBreakpoint (name : String) (condition : Option String) (hitCount : Option Nat) :
    EngineM σ (Except EngineError EngineId)
  clearBreakpoints (scope : BreakpointScope) : EngineM σ Unit
  /-- In the order in which the engine stores them. -/
  breakpoints (scope : BreakpointScope) : EngineM σ (List EngineBreakpoint)
  /-- Innermost frame first. -/
  callStack : EngineM σ (List EngineFrame)
  listVariables (scope : Scope) : EngineM σ (Except EngineError (List EngineVariable))
  lookupVariable (scope : Scope) (name : String) :
    EngineM σ (Except EngineError (Option EngineVariable))
  children (value : Reference) : EngineM σ (Except EngineError (List EngineChild))
  evaluate (scope : Scope) (expression : String) : EngineM σ (Except EngineError Description)
  /-- A value converted to a declared type. -/
  coerce (value : Description) (type : String) : EngineM σ (Except EngineError Description)
  assign (scope : Scope) (name : String) (value : Description) :
    EngineM σ (Except EngineError Unit)

end Stepwise
