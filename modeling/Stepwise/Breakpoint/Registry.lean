import Stepwise.Breakpoint.Basic
import Stepwise.Breakpoint.Hint
import Stepwise.Engine.Context
import Stepwise.Text.Blank
import Stepwise.Text.Integer

namespace Stepwise

/-- The condition without blanks around it; one of blanks alone is none. -/
def nonBlank (text : Option String) : Option String :=
  (text.map Text.trim).filter (· ≠ "")

def badHitCount (text : String) : String :=
  "Hit count '" ++ text ++ "' is not valid, it must be a positive integer."

/-- A hit count is a positive number of 64 bits. -/
def hitCount? (text : String) : Except String Nat :=
  match Text.readUnsigned? (Text.trimBlanks text.toList) with
  | some n => if 0 < n then .ok n else .error (badHitCount text)
  | none => .error (badHitCount text)

/-- What is checked before the engine is asked: the operators of the condition, then the hit
count. -/
def Breakpoint.validate (b : Breakpoint) : Except String (Option Nat) :=
  match b.condition.bind operatorHint with
  | some hint => .error hint
  | none =>
    match b.hitCondition with
    | none => .ok none
    | some text => (hitCount? text).map some

/-- Entries found by a key.  A new value for a key takes the place of the old one. -/
def putEntry {α β : Type} [BEq α] (key : α) (value : β) : List (α × β) → List (α × β)
  | [] => [(key, value)]
  | (k, v) :: rest => if k == key then (k, value) :: rest else (k, v) :: putEntry key value rest

/-- Breakpoints by the number that the engine gave them. -/
abbrev Registered := List (EngineId × Breakpoint)

/-- The breakpoints of a client and their counterparts in the engine. -/
structure Registry where
  /-- The number given to a client's breakpoint last. -/
  lastId : BreakpointId := 0
  /-- The breakpoints of each file, as they were last returned. -/
  files : List (Path × List Breakpoint) := []
  commands : List Breakpoint := []
  byEngineId : Registered := []
deriving Repr, DecidableEq

/-- A request as a breakpoint, and how the engine is asked for it. -/
structure Attempt (σ : Type) where
  breakpoint : Breakpoint
  register : Option Nat → EngineM σ (Except EngineError EngineId)

namespace Attempt

variable {σ : Type}

def ofLine (cx : Context σ) (path : Path) (r : LineRequest) : Attempt σ :=
  let b : Breakpoint :=
    { source := some path, line := some r.line, column := r.column,
      condition := nonBlank r.condition, hitCondition := nonBlank r.hitCondition }
  { breakpoint := b, register := cx.setLineBreakpoint path r.line r.column b.condition }

def ofCommand (cx : Context σ) (r : CommandRequest) : Attempt σ :=
  let b : Breakpoint :=
    { name := some r.name, condition := nonBlank r.condition,
      hitCondition := nonBlank r.hitCondition }
  { breakpoint := b, register := cx.setCommandBreakpoint r.name b.condition }

/-- Either the engine's number for the breakpoint or the breakpoint with the reason it was
refused. -/
def run (a : Attempt σ) : EngineM σ (Except Breakpoint (EngineId × Breakpoint)) := do
  match a.breakpoint.validate with
  | .error message => return .error { a.breakpoint with message := some message }
  | .ok hitCount =>
    match ← a.register hitCount with
    | .ok id => return .ok (id, { a.breakpoint with verified := true })
    | .error e => return .error { a.breakpoint with message := some e.message }

/-- All attempts in order: what was registered and what was refused. -/
def runAll : List (Attempt σ) → Registered → List Breakpoint →
    EngineM σ (Registered × List Breakpoint)
  | [], registered, refused => return (registered, refused)
  | a :: rest, registered, refused => do
    match ← a.run with
    | .ok (id, b) => runAll rest (putEntry id b registered) refused
    | .error b => runAll rest registered (refused ++ [b])

end Attempt

namespace Registry

/-- Gives a registered breakpoint the next number of the client. -/
def confirmOne (r : Registry) (id : EngineId) (b : Breakpoint) : Breakpoint × Registry :=
  let b := { b with id := some (r.lastId + 1) }
  (b, { r with lastId := r.lastId + 1, byEngineId := putEntry id b r.byEngineId })

/-- The place of a breakpoint as the engine lists it. -/
def placed (b : Breakpoint) : Location → Breakpoint
  | .line _ line column => { b with line := some line, column }
  | .command _ => b

/-- Confirms what the engine lists, in its order, and gives what it does not list. -/
def confirmListed (r : Registry) (registered : Registered) :
    List EngineBreakpoint → List Breakpoint × Registered × Registry
  | [] => ([], registered, r)
  | listed :: rest =>
    match registered.lookup listed.id with
    | none => confirmListed r registered rest
    | some b =>
      let (b, r) := r.confirmOne listed.id (placed b listed.location)
      let (others, left, r) := confirmListed r (registered.filter (·.1 != listed.id)) rest
      (b :: others, left, r)

/-- Confirms breakpoints that the engine accepted but does not list.  Nothing says in what order
they come; here it is the order in which they were accepted. -/
def confirmRest (r : Registry) : Registered → List Breakpoint × Registry
  | [] => ([], r)
  | (id, b) :: rest =>
    let (b, r) := r.confirmOne id b
    let (others, r) := confirmRest r rest
    (b :: others, r)

variable {σ : Type}

/-- The confirmed breakpoints in the engine's order, then those it does not list, then the refused
ones. -/
def confirm (cx : Context σ) (scope : BreakpointScope) (attempts : List (Attempt σ))
    (r : Registry) : EngineM σ (List Breakpoint × Registry) := do
  let (registered, refused) ← Attempt.runAll attempts [] []
  let listing ← cx.breakpoints scope
  let (listed, left, r) := r.confirmListed registered listing
  let (unlisted, r) := r.confirmRest left
  return (listed ++ unlisted ++ refused, r)

/-- The lists of all files with another one for this file. -/
def putFile (path : Path) (l : List Breakpoint) :
    List (Path × List Breakpoint) → List (Path × List Breakpoint)
  | [] => [(path, l)]
  | (p, old) :: rest =>
    if p.same path then (p, l) :: rest else (p, old) :: putFile path l rest

def setLine (cx : Context σ) (home : Home) (path : Path) (requests : List LineRequest)
    (r : Registry) : EngineM σ (List Breakpoint × Registry) := do
  let path := home.expandHome path
  cx.clearBreakpoints (.file path)
  let r := { r with
    byEngineId := r.byEngineId.filter fun (_, b) => !b.source.any (·.same path) }
  let (confirmed, r) ← confirm cx (.file path) (requests.map (.ofLine cx path)) r
  return (confirmed, { r with files := putFile path confirmed r.files })

def setCommands (cx : Context σ) (requests : List CommandRequest) (r : Registry) :
    EngineM σ (List Breakpoint × Registry) := do
  cx.clearBreakpoints .commands
  let r := { r with byEngineId := r.byEngineId.filter fun (_, b) => b.name.isNone }
  let (confirmed, r) ← confirm cx .commands (requests.map (.ofCommand cx)) r
  return (confirmed, { r with commands := confirmed })

/-- Clears the files one by one.  Nothing says in what order; here it is the order in which they got
their lists. -/
def clearFiles (cx : Context σ) : List (Path × List Breakpoint) → EngineM σ Unit
  | [] => return ()
  | (path, _) :: rest => do
    cx.clearBreakpoints (.file path)
    clearFiles cx rest

/-- Clears every breakpoint from the engine and forgets it.  Numbers are not used again. -/
def removeAll (cx : Context σ) (r : Registry) : EngineM σ Registry := do
  clearFiles cx r.files
  cx.clearBreakpoints .commands
  return { lastId := r.lastId }

/-- All breakpoints: file by file in the order of paths, then those on commands. -/
def breakpoints (r : Registry) : List Breakpoint :=
  (r.files.mergeSort fun a b => a.1.precedes b.1).flatMap (·.2) ++ r.commands

/-- The client's breakpoints for numbers of the engine; unknown numbers are passed over. -/
def resolveHits (r : Registry) (ids : List EngineId) : List Breakpoint :=
  ids.filterMap fun id => List.lookup id r.byEngineId

end Registry
end Stepwise
