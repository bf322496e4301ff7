import Stepwise.Script.Engine

namespace Stepwise.Rehearsal

/-- What a fixed sequence does next. -/
inductive Cue where
  | halt (halt : Halt)
  | safePoint
  | pause (milliseconds : Nat)
deriving Repr, DecidableEq

/-- The wrong answers of a halted engine. -/
structure Faults where
  /-- Breakpoints that are not listed. -/
  hidden : List EngineId := []
  /-- Added to the line of each listed line breakpoint. -/
  lineShift : Int := 0
  /-- Stands for the column of each listed line breakpoint. -/
  column : Option Nat := none
  /-- Results for the exact texts of expressions. -/
  evaluations : List (String × Except EngineError Description) := []
  /-- Evaluating this text takes the thread down. -/
  crashOn : Option String := none
  assign : Option EngineError := none
  listing : Option EngineError := none
  children : Option EngineError := none
  /-- After an assignment no variable is found until the engine resumes. -/
  forgetful : Bool := false
  noStack : Bool := false
  /-- The number of frames listed; the real ones are repeated. -/
  stackDepth : Option Nat := none
  /-- Clearing breakpoints has no effect. -/
  noClear : Bool := false

/-- Some scripts wait at a gate before they start, some paths stand for a fixed sequence of halts,
and while it is halted the engine gives wrong or refusing answers on purpose. -/
structure Plan where
  catalog : Script.Catalog := {}
  /-- Scripts that wait at the gate. -/
  gated : List Path := []
  sequences : List (Path × List Cue) := []
  faults : Faults := {}

structure State where
  script : Script.State
  /-- How many gated runs may still pass. -/
  permits : Nat := 0
  /-- The gate lets everyone pass. -/
  gateOpen : Bool := false
  halted : Bool := false
  /-- A variable was assigned since the engine halted. -/
  assigned : Bool := false
  /-- How the halts of fixed sequences were answered. -/
  answers : List Resume := []

inductive Run where
  | arriving (source : Source)
  | script (run : Script.Run)
  /-- A script that has just been told how to go on. -/
  | resuming (run : Script.Run)
  | sequence (cues : List Cue)
  | answered (action : Resume) (cues : List Cue)

/-- The script engine's operation on its part of the state. -/
def inner {α : Type} (m : EngineM Script.State α) : EngineM State α :=
  OptionT.mk fun s =>
    let (a, script) := m.run s.script
    (a, { s with script })

/-- One operation while the engine is halted and another one otherwise. -/
def whileHalted {α : Type} (m n : EngineM State α) : EngineM State α :=
  OptionT.mk fun s => if s.halted then m.run s else n.run s

/-- A diagnostic instead of the answer, if there is one. -/
def refusing {α : Type} (e : Option EngineError) (m : EngineM State (Except EngineError α)) :
    EngineM State (Except EngineError α) :=
  match e with
  | some e => return .error e
  | none => m

namespace Faults

def move (f : Faults) (b : EngineBreakpoint) : EngineBreakpoint :=
  match b.location with
  | .line path line column =>
    { b with location := .line path ((line : Int) + f.lineShift).toNat (f.column.or column) }
  | .command _ => b

def list (f : Faults) (bs : List EngineBreakpoint) : List EngineBreakpoint :=
  (bs.filter fun b => !f.hidden.contains b.id).map f.move

/-- The frames repeated in a cycle up to a number of them. -/
def cycle (frames : List EngineFrame) (depth : Nat) : List EngineFrame :=
  let a := frames.toArray
  (List.range depth).filterMap fun i => a[i % a.size]?

def stack (f : Faults) (frames : List EngineFrame) : List EngineFrame :=
  if f.noStack then []
  else
    match f.stackDepth with
    | some depth => cycle frames depth
    | none => frames

def evaluate (f : Faults) (scope : Scope) (expression : String) :
    EngineM State (Except EngineError Description) :=
  if f.crashOn = some expression then failure
  else
    match f.evaluations.reverse.lookup expression with
    | some result => return result
    | none => inner (Script.context.evaluate scope expression)

/-- The context of the engine with its faults while it is halted. -/
def context (f : Faults) : Context State where
  setLineBreakpoint path line column condition hitCount :=
    inner (Script.context.setLineBreakpoint path line column condition hitCount)
  setCommandBreakpoint name condition hitCount :=
    inner (Script.context.setCommandBreakpoint name condition hitCount)
  clearBreakpoints scope :=
    whileHalted (if f.noClear then return () else inner (Script.context.clearBreakpoints scope))
      (inner (Script.context.clearBreakpoints scope))
  breakpoints scope :=
    whileHalted (f.list <$> inner (Script.context.breakpoints scope))
      (inner (Script.context.breakpoints scope))
  callStack :=
    whileHalted (f.stack <$> inner Script.context.callStack) (inner Script.context.callStack)
  listVariables scope :=
    whileHalted (refusing f.listing (inner (Script.context.listVariables scope)))
      (inner (Script.context.listVariables scope))
  lookupVariable scope name := do
    let s ← get
    if s.halted && s.assigned && f.forgetful then return .ok none
    else inner (Script.context.lookupVariable scope name)
  children reference :=
    whileHalted (refusing f.children (inner (Script.context.children reference)))
      (inner (Script.context.children reference))
  evaluate scope expression :=
    whileHalted (f.evaluate scope expression) (inner (Script.context.evaluate scope expression))
  coerce value type := inner (Script.context.coerce value type)
  assign scope name value :=
    whileHalted
      (refusing f.assign do
        let result ← inner (Script.context.assign scope name value)
        modify fun s => { s with assigned := true }
        return result)
      (inner (Script.context.assign scope name value))

end Faults

/-- A signal of the script engine as one of this engine. -/
def ofScript (signal : Signal Script.Run) (s : State) : Signal Run × State :=
  match signal with
  | .safePoint run => (.safePoint (.script run), s)
  | .halted halt run =>
    (.halted halt fun action => .resuming (run action), { s with halted := true, assigned := false })
  | .paused ms run => (.paused ms (.script run), s)
  | .blocked run => (.blocked (.script run), s)
  | .finished outcome => (.finished outcome, s)
  | .crashed => (.crashed, s)

def nextScript (plan : Plan) (run : Script.Run) (s : State) (interrupts : Interrupts) :
    Signal Run × State × Interrupts :=
  let (signal, script, interrupts) := Script.next plan.catalog run s.script interrupts
  let (signal, s) := ofScript signal { s with script }
  (signal, s, interrupts)

def nextCue (cues : List Cue) (s : State) : Signal Run × State :=
  match cues with
  | [] => (.finished .completed, s)
  | .safePoint :: rest => (.safePoint (.sequence rest), s)
  | .pause ms :: rest => (.paused ms (.sequence rest), s)
  | .halt halt :: rest =>
    (.halted halt fun action => .answered action rest,
      { s with halted := true, assigned := false })

/-- The gate opens for a source, if it has to pass one. -/
def pass (plan : Plan) (source : Source) (s : State) : Option State :=
  match source with
  | .file path _ =>
    if plan.gated.any (·.same path) && !s.gateOpen then
      if s.permits = 0 then none else some { s with permits := s.permits - 1 }
    else some s
  | .inline _ => some s

def sequence? (plan : Plan) : Source → Option (List Cue)
  | .file path _ => (plan.sequences.reverse.find? fun (p, _) => p.same path).map (·.2)
  | .inline _ => none

def next (plan : Plan) (run : Run) (s : State) (interrupts : Interrupts) :
    Signal Run × State × Interrupts :=
  match run with
  | .arriving source =>
    match pass plan source s with
    | none => (.blocked (.arriving source), s, interrupts)
    | some s =>
      match sequence? plan source with
      | some cues =>
        let (signal, s) := nextCue cues s
        (signal, s, interrupts)
      | none => nextScript plan (.launching source) s interrupts
  | .script run => nextScript plan run s interrupts
  | .resuming run => nextScript plan run { s with halted := false } interrupts
  | .sequence cues =>
    let (signal, s) := nextCue cues s
    (signal, s, interrupts)
  | .answered action cues =>
    let (signal, s) := nextCue cues { s with halted := false, answers := s.answers ++ [action] }
    (signal, s, interrupts)

end Rehearsal

/-- The script engine with gates, fixed sequences and faults. -/
def rehearsalEngine (plan : Rehearsal.Plan) : Engine where
  State := Rehearsal.State
  Run := Rehearsal.Run
  context := plan.faults.context
  launch := .arriving
  next := Rehearsal.next plan

end Stepwise
