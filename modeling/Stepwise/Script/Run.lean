import Stepwise.Script.State
import Stepwise.Script.Binding

namespace Stepwise.Script
open Text

/-- What is left to do, the next task first. -/
inductive Task where
  | block (statements : List Statement)
  /-- The count goes on with the value `next`. -/
  | iterate (line : Nat) (variableName : String) (next last : Int) (body : List Statement)
  /-- The loop rests for a moment and starts again. -/
  | again (line : Nat) (body : List Statement)
  | leave
deriving Repr, BEq

def Task.weight : Task → Nat
  | .block statements => statements.length + 1
  | _ => 1

/-- How much there is to go through before the next statement. -/
def Task.totalWeight : List Task → Nat
  | [] => 0
  | task :: rest => task.weight + totalWeight rest

/-- What a statement does after its safe point. -/
inductive Effect where
  | assign (name expression : String) (declared : Option String)
  | set (name : String) (value : Value)
  | command (name : String)
  | pass
  | call (function : String) (arguments : List (String × String))
deriving Repr, BEq

structure Point where
  line : Nat
  effect : Effect
  /-- What is left to do after it. -/
  tasks : List Task
deriving Repr, BEq

def Point.command? (p : Point) : Option String :=
  match p.effect with
  | .command name => some name
  | _ => none

inductive Arrival where
  | at (point : Point)
  | resting (tasks : List Task)
  | done
deriving Repr, BEq

/-- Goes through the tasks up to the next statement, leaving functions on the way. -/
def arrive : List Task → List Frame → Arrival × List Frame
  | [], frames => (.done, frames)
  | .leave :: rest, frames => arrive rest frames.tail
  | .again line body :: rest, frames => (.resting (.block [.loop line body] :: rest), frames)
  | .iterate line name next last body :: rest, frames =>
    if next ≤ last then
      (.at ⟨line, .set name (.int (Int64.ofInt next)),
        .block body :: .iterate line name (next + 1) last body :: rest⟩, frames)
    else arrive rest frames
  | .block [] :: rest, frames => arrive rest frames
  | .block (statement :: others) :: rest, frames =>
    match statement with
    | .assign line name expression =>
      (.at ⟨line, .assign name expression none, .block others :: rest⟩, frames)
    | .declare line name type expression =>
      (.at ⟨line, .assign name expression (some type), .block others :: rest⟩, frames)
    | .set line name value => (.at ⟨line, .set name value, .block others :: rest⟩, frames)
    | .command line name => (.at ⟨line, .command name, .block others :: rest⟩, frames)
    | .count line name first last body =>
      if first ≤ last then
        (.at ⟨line, .set name (.int (Int64.ofInt first)),
          .block body :: .iterate line name (first + 1) last body :: .block others :: rest⟩, frames)
      else arrive (.block others :: rest) frames
    | .loop line body =>
      (.at ⟨line, .pass, .block body :: .again line body :: .block others :: rest⟩, frames)
    | .call line function arguments =>
      (.at ⟨line, .call function arguments, .block others :: rest⟩, frames)
termination_by tasks => Task.totalWeight tasks
decreasing_by
  all_goals
    simp only [Task.totalWeight, Task.weight, List.length_cons, List.length_nil]
    omega

/-- When a run halts on account of a step. -/
inductive Stepping where
  | off
  | into
  /-- At the same or a smaller number of frames. -/
  | over (depth : Nat)
  /-- At a smaller number of frames. -/
  | out (depth : Nat)
deriving Repr, DecidableEq

def Stepping.endsAt (depth : Nat) : Stepping → Bool
  | .off => false
  | .into => true
  | .over start => depth ≤ start
  | .out start => depth < start

/-- The step that a resume asks for at a number of frames. -/
def Stepping.after (depth : Nat) : Resume → Stepping
  | .continue | .abort => .off
  | .stepIn => .into
  | .stepOver => .over depth
  | .stepOut => .out depth

structure Loaded where
  program : Program
  path : Option Path
  remote : Bool
deriving Repr, BEq

/-- What an engine can run.  Of two entries for one script the later one counts; scripts are found
by the components of their path. -/
structure Catalog where
  files : List (Path × Program × Bool) := []
  inlines : List (String × Program) := []
deriving Repr, BEq

def unknownTerm (term : String) : String :=
  "The term '" ++ term ++
    "' is not recognized as a name of a cmdlet, function, script file, or executable program."

/-- The script of a source with its arguments, or why there is none. -/
def Catalog.find (catalog : Catalog) : Source → Except String (Loaded × List String)
  | .file path arguments =>
    match catalog.files.reverse.find? fun (p, _) => p.same path with
    | some (_, program, remote) => .ok (⟨program, some path, remote⟩, arguments)
    | none => .error (unknownTerm path.text)
  | .inline text =>
    match catalog.inlines.reverse.lookup text with
    | some program => .ok (⟨program, none, false⟩, [])
    | none => .error ("Unknown command '" ++ text ++ "'.")

/-- An argument is an expression over the globals, or else a bare word. -/
def State.argumentValue (s : State) (token : String) : Value :=
  match s.evaluate .global token with
  | .ok value => value
  | .error _ => .str token

/-- The state in which a script starts.  A script in a file knows its directory and its
arguments. -/
def State.enter (s : State) (script : Loaded) (arguments : List String) : State :=
  let root : Variables :=
    match script.path.bind Path.parent? with
    | some directory =>
      [{ name := "$PSScriptRoot", value := .str directory.text, automatic := true }]
    | none => []
  let bound : Variables :=
    if script.path.isSome then bind s.argumentValue script.program.parameters arguments else []
  { s with
    scriptVariables := root ++ bound
    frames := [{ functionName := "<ScriptBlock>", path := script.path, line := 0, locals := none }] }

def State.noteLine (s : State) (line : Nat) : State :=
  match s.frames with
  | [] => s
  | f :: rest => { s with frames := { f with line } :: rest }

/-- A statement carried out: the run goes on, ends with a message, or takes the thread down. -/
inductive Carried where
  | on (state : State) (interrupts : Interrupts) (tasks : List Task)
  | failed (message : String)
  | crashed

def Carried.ofExcept (interrupts : Interrupts) (tasks : List Task) :
    Except ScriptError State → Carried
  | .ok s => .on s interrupts tasks
  | .error e =>
    match e.report? with
    | some report => .failed report.message
    | none => .crashed

def State.arguments (s : State) : List (String × String) → Except ScriptError Variables
  | [] => .ok []
  | (name, expression) :: rest => do
    let value ← s.evaluate (.locals 0) expression
    let others ← s.arguments rest
    .ok ({ name, value } :: others)

def State.carryOut (s : State) (script : Loaded) (interrupts : Interrupts) (p : Point) : Carried :=
  match p.effect with
  | .assign name expression declared =>
    .ofExcept interrupts p.tasks do
      let value ← s.evaluate (.locals 0) expression
      s.store (.locals 0) name value declared
  | .set name value => .ofExcept interrupts p.tasks (s.store (.locals 0) name value none)
  | .pass => .on s interrupts p.tasks
  | .command name =>
    if sameName name waitCommand then .on s { interrupts with breakRequested := true } p.tasks
    else if sameName name crashCommand then .crashed
    else .on s interrupts p.tasks
  | .call function arguments =>
    match script.program.function? function with
    | none => .failed (unknownTerm function)
    | some body =>
      .ofExcept interrupts (.block body :: .leave :: p.tasks) do
        let bound ← s.arguments arguments
        let frame : Frame :=
          { functionName := function
            path := script.path
            line := p.line
            locals := some ({ name := "$args", value := .array [], automatic := true } :: bound) }
        .ok { s with frames := frame :: s.frames }

/-- Where a run stands between two signals. -/
inductive Run where
  | launching (source : Source)
  | running (script : Loaded) (stepping : Stepping) (tasks : List Task)
  /-- The safe point before a statement has been served. -/
  | checking (script : Loaded) (stepping : Stepping) (point : Point)
  /-- The halt before a statement has been answered. -/
  | resumed (script : Loaded) (point : Point) (depth : Nat) (action : Resume)

/-- The end of a run.  Requests that are still pending do not carry over to the next one. -/
def conclude (s : State) (outcome : Outcome) : Signal Run × State × Interrupts :=
  (.finished outcome, { s with frames := [], arena := [] }, {})

/-- Goes on to the safe point of the next statement. -/
def proceed (s : State) (interrupts : Interrupts) (script : Loaded) (stepping : Stepping)
    (tasks : List Task) : Signal Run × State × Interrupts :=
  match arrive tasks s.frames with
  | (.at p, frames) => (.safePoint (.checking script stepping p), { s with frames }, interrupts)
  | (.resting tasks, frames) =>
    (.paused 1 (.running script stepping tasks), { s with frames }, interrupts)
  | (.done, frames) => conclude { s with frames } .completed

def execute (s : State) (interrupts : Interrupts) (script : Loaded) (stepping : Stepping)
    (p : Point) : Signal Run × State × Interrupts :=
  match s.carryOut script interrupts p with
  | .on s interrupts tasks => proceed s interrupts script stepping tasks
  | .failed message => conclude s (.failed message)
  | .crashed => (.crashed, s, interrupts)

/-- Decides, after a safe point, whether the run ends, halts or carries its statement out. -/
def check (s : State) (interrupts : Interrupts) (script : Loaded) (stepping : Stepping)
    (p : Point) : Signal Run × State × Interrupts :=
  if interrupts.abortRequested then conclude s .aborted
  else
    let (hits, s) := (s.noteLine p.line).reach script.path p.line p.command?
    let depth := s.frames.length
    if hits.isEmpty && !stepping.endsAt depth && !interrupts.breakRequested then
      execute s interrupts script stepping p
    else
      let halt : Halt :=
        { scriptPath := script.path, line := p.line, column := 1, breakpoints := hits,
          remote := script.remote }
      (.halted halt (.resumed script p depth), { s with arena := [] },
        { interrupts with breakRequested := false })

def next (catalog : Catalog) (run : Run) (s : State) (interrupts : Interrupts) :
    Signal Run × State × Interrupts :=
  match run with
  | .launching source =>
    match catalog.find source with
    | .error message => (.finished (.failed message), s, interrupts)
    | .ok (script, arguments) =>
      proceed (s.enter script arguments) interrupts script .off [.block script.program.body]
  | .running script stepping tasks => proceed s interrupts script stepping tasks
  | .checking script stepping p => check s interrupts script stepping p
  | .resumed script p depth action =>
    let s := { s with arena := [] }
    match action with
    | .abort => conclude s .aborted
    | action => execute s interrupts script (.after depth action) p

end Stepwise.Script
