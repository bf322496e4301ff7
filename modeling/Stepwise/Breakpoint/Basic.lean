import Stepwise.Path

namespace Stepwise

/-- The number by which a client knows a breakpoint. -/
abbrev BreakpointId := Nat

/-- A breakpoint that was asked for, confirmed by the engine or refused with a message.  A line
breakpoint has a source and a line, a command breakpoint a name. -/
structure Breakpoint where
  id : Option BreakpointId := none
  verified : Bool := false
  message : Option String := none
  source : Option Path := none
  line : Option Nat := none
  column : Option Nat := none
  name : Option String := none
  condition : Option String := none
  hitCondition : Option String := none
deriving Repr, DecidableEq

inductive BreakpointKind where
  | line
  | command
  | conditional
  | hitCount
deriving Repr, DecidableEq

/-- A condition counts more than a hit count, and either more than the place. -/
def Breakpoint.kind (b : Breakpoint) : BreakpointKind :=
  if b.condition.isSome then .conditional
  else if b.hitCondition.isSome then .hitCount
  else if b.name.isSome then .command
  else .line

structure LineRequest where
  line : Nat
  column : Option Nat := none
  condition : Option String := none
  hitCondition : Option String := none
deriving Repr, DecidableEq

structure CommandRequest where
  name : String
  condition : Option String := none
  hitCondition : Option String := none
deriving Repr, DecidableEq

end Stepwise
