import Stepwise.Script.Run

namespace Stepwise.Script

/-- An answer that leaves the state alone if it is an error. -/
def answer {α : Type} (f : State → Except ScriptError (α × State)) :
    EngineM State (Except EngineError α) :=
  OptionT.mk fun s =>
    match f s with
    | .ok (a, s) => (some (.ok a), s)
    | .error e =>
      match e.report? with
      | some report => (some (.error report), s)
      | none => (none, s)

def observe {α : Type} (f : State → α) : EngineM State α :=
  OptionT.mk fun s => (some (f s), s)

def Frame.listed (f : Frame) : EngineFrame :=
  { functionName := f.functionName, scriptPath := f.path, line := f.line, column := 1 }

def context : Context State where
  setLineBreakpoint path line column condition hitCount :=
    answer (·.addBreakpoint (.line path line column) condition hitCount)
  setCommandBreakpoint name condition hitCount :=
    answer (·.addBreakpoint (.command name) condition hitCount)
  clearBreakpoints scope := OptionT.mk fun s => (some (), s.clearBreakpoints scope)
  breakpoints scope := observe (·.listBreakpoints scope)
  callStack := observe (·.frames.map Frame.listed)
  listVariables scope := answer fun s => (s.scope scope).map s.describeVariables
  lookupVariable scope name := answer fun s => do
    let vars ← s.scope scope
    match vars.find? name with
    | none => .ok (none, s)
    | some v =>
      let (told, s) := s.describeVariable v
      .ok (some told, s)
  children reference := answer fun s => do
    let value ← s.arena.get reference
    .ok (s.describeChildren value.children)
  evaluate scope expression := answer fun s => (s.evaluate scope expression).map s.describe
  coerce value type := answer fun s => do
    let value ← value.resolve s.arena
    let converted ← value.coerce s.enums type
    .ok (s.describe converted)
  assign scope name value := answer fun s => do
    let value ← value.resolve s.arena
    let s ← s.store scope name value none
    .ok ((), s)

end Script

/-- The engine that runs the scripts of a catalog. -/
def scriptEngine (catalog : Script.Catalog) : Engine where
  State := Script.State
  Run := Script.Run
  context := Script.context
  launch := .launching
  next := Script.next catalog

namespace Script

/-- The state of a new engine, with further enumerations and globals after its own. -/
def State.initial (enums : Enumerations) (globals : Variables) : State where
  enums :=
    ("ActionPreference",
      ["SilentlyContinue", "Stop", "Continue", "Inquire", "Ignore", "Suspend", "Break"]) :: enums
  globals :=
    [{ name := "$MaximumHistoryCount", value := .int 4096, declaredType := some "int" },
     { name := "$VerbosePreference", value := .enum "ActionPreference" "SilentlyContinue",
       declaredType := some "ActionPreference" },
     { name := "$Error", value := .array [], automatic := true }] ++ globals

end Stepwise.Script
