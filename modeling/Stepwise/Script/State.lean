import Stepwise.Engine.Basic
import Stepwise.Expression.Parser
import Stepwise.Expression.Evaluation
import Stepwise.Script.Variable
import Stepwise.Script.Program
import Stepwise.Value.Arena

namespace Stepwise.Script
open Text

/-- An activation.  The outermost one has no locals of its own: there the script's variables are
the local ones. -/
structure Frame where
  functionName : String
  path : Option Path
  line : Nat
  locals : Option Variables
deriving Repr, BEq

/-- A registered breakpoint and how often it was passed with its condition true. -/
structure Breakpoint where
  id : EngineId
  location : Location
  condition : Option (String × Expr)
  hitCount : Option Nat
  hits : Nat
deriving Repr, DecidableEq

structure State where
  globals : Variables := []
  scriptVariables : Variables := []
  /-- Innermost first. -/
  frames : List Frame := []
  /-- In the order of their registration. -/
  breakpoints : List Breakpoint := []
  /-- The number given to the breakpoint registered last. -/
  lastId : EngineId := 0
  arena : Arena := []
  enums : Enumerations := []
deriving Repr, BEq

/-- A name without a scope qualifier, and the qualifier.  `$script:x` is the `$x` of the script. -/
def splitQualifier (name : String) : Option String × String :=
  let bare := name.toList.dropWhile (· == '$')
  match bare.dropWhile (· != ':') with
  | [] => (none, name)
  | _ :: rest => (some (String.ofList (bare.takeWhile (· != ':'))), String.ofList ('$' :: rest))

namespace State

/-- Whether there are frames up to a number, counted from the innermost one.  Numbers are machine
words, and after the largest of them comes 0: that many frames there always are. -/
def reaches (s : State) (index : Nat) : Except ScriptError Unit :=
  if (index + 1) % wordBound ≤ s.frames.length then .ok () else .error (.noFrame index)

/-- The frame of a number.  No frame has the largest number, though it passes the check. -/
def frame (s : State) (index : Nat) : Except ScriptError Frame := do
  s.reaches index
  match s.frames[index]? with
  | some f => .ok f
  | none => .error .frameOverflow

def scope (s : State) : Scope → Except ScriptError Variables
  | .locals index => do
    let f ← s.frame index
    .ok (f.locals.getD s.scriptVariables)
  | .script index => do
    s.reaches index
    .ok s.scriptVariables
  | .global => .ok s.globals

def withScope (s : State) (scope : Scope) (vars : Variables) : State :=
  match scope with
  | .locals index =>
    match s.frames[index]? with
    | some f =>
      match f.locals with
      | some _ => { s with frames := s.frames.set index { f with locals := some vars } }
      | none => { s with scriptVariables := vars }
    | none => s
  | .script _ => { s with scriptVariables := vars }
  | .global => { s with globals := vars }

/-- The scopes in which an expression looks a name up, the innermost first.  A frame that does not
exist has no locals. -/
def lookupChain (s : State) (scope : Scope) (qualifier : Option String) :
    Except ScriptError (List Variables) :=
  let unqualified (scope : Scope) : Except ScriptError (List Variables) :=
    match scope with
    | .global => .ok [s.globals]
    | .script _ => .ok [s.scriptVariables, s.globals]
    | .locals index =>
      match s.scope (.locals index) with
      | .ok vars => .ok [vars, s.scriptVariables, s.globals]
      | .error .frameOverflow => .error .frameOverflow
      | .error _ => .ok [s.scriptVariables, s.globals]
  match qualifier with
  | none => unqualified scope
  | some q =>
    if sameName q "global" then .ok [s.globals]
    else if sameName q "script" then .ok [s.scriptVariables, s.globals]
    else unqualified scope

/-- The value that a name has in an expression. -/
def lookup (s : State) (scope : Scope) (name : String) : Except ScriptError (Option Value) := do
  let (qualifier, bare) := splitQualifier name
  let chain ← s.lookupChain scope qualifier
  .ok ((chain.findSome? (·.find? bare)).map (·.value))

def environment (s : State) (scope : Scope) : Environment where
  valueOf := s.lookup scope
  enums := s.enums

def evaluate (s : State) (scope : Scope) (source : String) : Except ScriptError Value :=
  match Expr.parse source with
  | .error e => .error (.parse e)
  | .ok e => e.evaluate (s.environment scope)

/-- Stores a value under a name, converted to the type that is declared with it or, without one,
to the type of the variable that has the name. -/
def store (s : State) (scope : Scope) (name : String) (value : Value) (declared : Option String) :
    Except ScriptError State := do
  let vars ← s.scope scope
  let type :=
    match declared with
    | some t => some t
    | none => (vars.find? name).bind (·.declaredType)
  let value ←
    match type with
    | some t => value.coerce s.enums t
    | none => .ok value
  .ok (s.withScope scope (vars.put name value type))

def describe (s : State) (value : Value) : Description × State :=
  let (told, arena) := value.describe s.arena
  (told, { s with arena })

def describeVariable (s : State) (v : Variable) : EngineVariable × State :=
  let (told, s) := s.describe v.value
  ({ name := v.name, value := told, declaredType := v.declaredType, automatic := v.automatic }, s)

def describeVariables (s : State) : Variables → List EngineVariable × State
  | [] => ([], s)
  | v :: rest =>
    let (told, s) := s.describeVariable v
    let (others, s) := s.describeVariables rest
    (told :: others, s)

def describeChildren (s : State) : List (ChildKey × Value) → List EngineChild × State
  | [] => ([], s)
  | (key, value) :: rest =>
    let (told, s) := s.describe value
    let (others, s) := s.describeChildren rest
    (⟨key, told⟩ :: others, s)

/-- Registers a breakpoint under the next number, if its condition is an expression. -/
def addBreakpoint (s : State) (location : Location) (condition : Option String)
    (hitCount : Option Nat) : Except ScriptError (EngineId × State) := do
  let condition ←
    match condition with
    | none => .ok none
    | some text =>
      match Expr.parse text with
      | .error e => .error (.parse e)
      | .ok e => .ok (some (text, e))
  let id := s.lastId + 1
  .ok (id, { s with
    lastId := id
    breakpoints := s.breakpoints ++ [{ id, location, condition, hitCount, hits := 0 }] })

def clearBreakpoints (s : State) (scope : BreakpointScope) : State :=
  { s with breakpoints := s.breakpoints.filter fun b => !b.location.isIn scope }

end State

namespace Breakpoint

def listed (b : Breakpoint) : EngineBreakpoint :=
  { id := b.id, location := b.location, condition := b.condition.map (·.1), hitCount := b.hitCount }

/-- Where a breakpoint stands in a list: line breakpoints by position, then all by number. -/
def position (b : Breakpoint) : Nat × Nat :=
  match b.location with
  | .line _ line column => (line, column.getD 0)
  | .command _ => (0, 0)

def precedes (a b : Breakpoint) : Bool :=
  let (la, ca) := a.position
  let (lb, cb) := b.position
  la < lb || (la == lb && (ca < cb || (ca == cb && a.id ≤ b.id)))

/-- A breakpoint is at a statement if it is on its line in its script, or on its command. -/
def isAt (b : Breakpoint) (path : Option Path) (line : Nat) (command : Option String) : Bool :=
  match b.location with
  | .line p l _ => (path.any fun q => p.same q) && l == line
  | .command name => command.any fun c => sameName c name

/-- A condition holds if it evaluates, in the innermost frame, to something that counts as true. -/
def holds (b : Breakpoint) (s : State) : Bool :=
  match b.condition with
  | none => true
  | some (_, e) =>
    match e.evaluate (s.environment (.locals 0)) with
    | .ok v => v.truthy
    | .error _ => false

/-- The breakpoint after a statement is reached, and whether it fires there.  It counts the times
it is reached with its condition true, and with a hit count it fires only at that time. -/
def reach (b : Breakpoint) (s : State) (path : Option Path) (line : Nat)
    (command : Option String) : Breakpoint × Bool :=
  if b.isAt path line command && b.holds s then
    let b := { b with hits := b.hits + 1 }
    (b, b.hitCount.all (· == b.hits))
  else (b, false)

end Breakpoint

namespace State

def listBreakpoints (s : State) (scope : BreakpointScope) : List EngineBreakpoint :=
  ((s.breakpoints.filter fun b => b.location.isIn scope).mergeSort Breakpoint.precedes).map
    Breakpoint.listed

/-- The breakpoints that fire at a statement, in the order of their registration. -/
def reach (s : State) (path : Option Path) (line : Nat) (command : Option String) :
    List EngineId × State :=
  let reached := s.breakpoints.map fun b => b.reach s path line command
  ((reached.filter (·.2)).map (·.1.id), { s with breakpoints := reached.map (·.1) })

end State
end Stepwise.Script
