import Stepwise.Breakpoint.Registry
import Stepwise.Display
import Stepwise.EventFeed

namespace Stepwise

/-- Local copies of remote scripts; of two entries for one script the later one counts.  That a
workspace is a list says what is assumed of it: its answers depend on the script alone and stay the
same as long as the session lives. -/
abbrev Workspace := List (Path × Path)

def Workspace.localCopy? (w : Workspace) (remote : Path) : Option Path :=
  (w.reverse.find? fun (r, _) => r.same remote).map (·.2)

/-- Shown for code without a file. -/
def noFile : Path := ⟨"<No File>"⟩

/-- The path to show for a path of the engine, and the remote path if the script is remote. -/
def Workspace.clientPath (w : Workspace) (enginePath : Option Path) (remote : Bool) :
    Path × Option Path :=
  match enginePath with
  | none => (noFile, none)
  | some p => if remote then ((w.localCopy? p).getD p, some p) else (p, none)

/-- What does not change in the life of a session. -/
structure Surroundings where
  literals : Literals := {}
  workspace : Workspace := []
  home : Home
deriving Repr, DecidableEq

/-- What the lock of a session protects.  Frames and handles of a halt are made once, when the halt
is recorded, and are only read until the session leaves it. -/
structure Session where
  around : Surroundings
  runState : RunState := .running
  /-- A script was given to the engine and has not ended. -/
  executing : Bool := false
  registry : Registry := {}
  frames : List StackFrame := []
  handles : HandleTable := {}
  stops : StopQueue := {}
  feed : EventFeed := {}
deriving Repr, DecidableEq

/-- Work under the session's lock: it may fail with an error and keeps the session it leaves. -/
abbrev SessionM (σ α : Type) : Type := ExceptT SessionError (StateT Session (EngineM σ)) α

namespace Session

def publish (s : Session) (e : SessionEvent) : Session :=
  { s with feed := s.feed.publish e }

/-- Reads and writes need a halt. -/
def ensureStopped (s : Session) : Except SessionError Unit :=
  match s.runState with
  | .stopped => .ok ()
  | .terminated => .error .terminated
  | state => .error (.notStopped state)

def ensureLive (s : Session) : Except SessionError Unit :=
  match s.runState with
  | .terminated => .error .terminated
  | _ => .ok ()

/-- Leaves the current halt; its frames are forgotten. -/
def leaveStop (s : Session) (nextState : RunState) : Session :=
  { s with frames := [], runState := nextState }.publish .running

/-- Ends the session and closes the queue of stops. -/
def terminate (s : Session) : Session :=
  if s.runState = .terminated then s
  else
    { s with
      frames := []
      handles := s.handles.reset
      runState := .terminated
      stops := s.stops.dropSender 0 }.publish .terminated

/-- A script has ended.  Every run that was aborted ends the session. -/
def complete (s : Session) (outcome : Outcome) : Session :=
  let s := { s with executing := false, frames := [] }.publish (.executionCompleted outcome)
  match s.runState, outcome with
  | .terminated, _ => s
  | .aborting, _ => s.terminate
  | _, .aborted => s.terminate
  | _, _ => { s with runState := .running }

def exit (s : Session) (crashed : Bool) : Session :=
  (if crashed then { s with executing := false } else s).terminate

/-- The handles of the four scopes of a frame, unless the table runs out of indices. -/
def allocateScopes (t : HandleTable) (index : Nat) : Option FrameScopes × HandleTable :=
  let (auto, t) := t.allocate (.ofScope "Auto" (.locals index) .auto)
  let (locals, t) := t.allocate (.ofScope "Local" (.locals index) .all)
  let (script, t) := t.allocate (.ofScope "Script" (.script index) .all)
  let (global, t) := t.allocate (.ofScope "Global" .global .all)
  match auto, locals, script, global with
  | some auto, some locals, some script, some global => (some { auto, locals, script, global }, t)
  | _, _, _, _ => (none, t)

/-- The frames to show for the engine's frames, behind those made so far in reverse; none at all
if the handles run out. -/
def buildFrames (w : Workspace) (remote : Bool) :
    List EngineFrame → Nat → HandleTable → List StackFrame → List StackFrame × HandleTable
  | [], _, t, made => (made.reverse, t)
  | f :: rest, index, t, made =>
    match allocateScopes t index with
    | (none, t) => ([], t)
    | (some scopes, t) =>
      let frame : StackFrame :=
        { index, functionName := f.functionName, line := f.line, column := f.column, scopes
          scriptPath := (w.clientPath f.scriptPath remote).1 }
      buildFrames w remote rest (index + 1) t (frame :: made)

/-- What clients are told about a halt. -/
def stoppedEvent (s : Session) (h : Halt) : StoppedEvent :=
  let (scriptPath, remoteScriptPath) := s.around.workspace.clientPath h.scriptPath h.remote
  { scriptPath, remoteScriptPath, isRemoteSession := h.remote, line := h.line, column := h.column
    breakpoints := s.registry.resolveHits h.breakpoints }

variable {σ : Type}

/-- The session halted with a call stack: its frames and handles are new, and the stop is queued and
published. -/
def hold (s : Session) (h : Halt) (stack : List EngineFrame) : Session :=
  let (frames, handles) := buildFrames s.around.workspace h.remote stack 0 s.handles.reset []
  let event := s.stoppedEvent h
  let (_, stops) := s.stops.push event
  { s with frames, handles, stops, runState := .stopped }.publish (.stopped event)

/-- Records a halt and tells of it.  A session that is about to end does not hold the engine: the
halt is refused and nothing is told. -/
def halt (cx : Context σ) (h : Halt) (s : Session) : EngineM σ (Bool × Session) := do
  match s.runState with
  | .aborting => return (false, s)
  | .terminated => return (false, s)
  | .running | .stopped =>
    let stack ← cx.callStack
    return (true, s.hold h stack)

def stackFrames (s : Session) : Except SessionError (List StackFrame) := do
  s.ensureStopped
  .ok s.frames

def scopes (s : Session) (frame : Nat) : Except SessionError (List NamedScope) := do
  s.ensureStopped
  match s.frames[frame]? with
  | none => .error (.unknownFrame frame)
  | some f =>
    .ok [⟨"Auto", f.scopes.auto⟩, ⟨"Local", f.scopes.locals⟩, ⟨"Script", f.scopes.script⟩,
      ⟨"Global", f.scopes.global⟩]

def resolve (s : Session) (h : Handle) : Except SessionError Container :=
  (s.handles.resolve h).mapError SessionError.ofHandle

/-- The children of a container, if they have been listed before. -/
def cachedVariables (s : Session) (h : Handle) : Except SessionError (Option (List Variable)) := do
  s.ensureStopped
  let c ← s.resolve h
  .ok c.children

/-- The session with nothing remembered of what was listed. -/
def forgetful (s : Session) : Session :=
  { s with handles := s.handles.invalidateChildren }

end Session

/-- What is to be assigned, and to a variable of which declared type. -/
structure Assignment where
  scope : Scope
  declaredType : Option String
  value : Description

namespace SessionM

variable {σ α : Type}

/-- What only reads the session. -/
def read (f : Session → Except SessionError α) : SessionM σ α := do
  match f (← get) with
  | .ok a => return a
  | .error e => throw e

/-- An operation of the engine; a diagnostic becomes an error of the session. -/
def ask (m : EngineM σ (Except EngineError α)) (onError : EngineError → SessionError) :
    SessionM σ α := do
  match ← (m : SessionM σ (Except EngineError α)) with
  | .ok a => return a
  | .error e => throw (onError e)

def told (e : EngineError) : SessionError :=
  .evaluation e.message

def allocate (c : Container) : SessionM σ Handle := do
  let s ← get
  let (handle, handles) := s.handles.allocate c
  match handle with
  | some h =>
    set { s with handles }
    return h
  | none => throw .handleSpaceExhausted

/-- A value as it is listed, with a handle if it has children. -/
def makeVariable (name : String) (value : Description) (declaredType : Option String)
    (parentScope : Scope) : SessionM σ Variable := do
  let s ← get
  let shown := value.display s.around.literals
  let handle ←
    match shown.expandable, value.reference? with
    | true, some r => some <$> allocate (.ofValue name r parentScope)
    | _, _ => pure none
  return { name, value := shown.text, typeName := declaredType.or value.typeName?,
           isExpandable := handle.isSome, handle }

/-- Variables for the entries of a container, in order. -/
def makeVariables (parentScope : Scope) :
    List (String × Description × Option String) → SessionM σ (List Variable)
  | [] => return []
  | (name, value, type) :: rest => do
    let v ← makeVariable name value type parentScope
    let others ← makeVariables parentScope rest
    return v :: others

/-- What the engine lists for a container. -/
def entries (cx : Context σ) :
    ContainerKind → SessionM σ (List (String × Description × Option String))
  | .scope scope filter => do
    let vars ← ask (cx.listVariables scope) told
    return (vars.filter fun v => filter == .all || !v.automatic).map fun v =>
      (v.name, v.value, v.declaredType)
  | .value reference => do
    let children ← ask (cx.children reference) told
    return children.map fun c => (c.key.name, c.value, none)

/-- The children of a container; they are listed once and then remembered. -/
def expand (cx : Context σ) (h : Handle) : SessionM σ (List Variable) := do
  read Session.ensureStopped
  let c ← read (·.resolve h)
  match c.children with
  | some children => return children
  | none =>
    let listed ← entries cx c.kind
    let children ← makeVariables c.parentScope listed
    let handles ← read fun s => (s.handles.setChildren h children).mapError .ofHandle
    modify fun s => { s with handles }
    return children

/-- The value converted to the declared type of the variable, if it has one. -/
def convert (cx : Context σ) (name : String) (value : Description) :
    Option String → SessionM σ Description
  | none => return value
  | some type => ask (cx.coerce value type) fun e => .coercion name type e.message

def assignError (name : String) (type : Option String) (e : EngineError) : SessionError :=
  match e.kind with
  | .conversion => .coercion name (type.getD "") e.message
  | _ => .evaluation e.message

/-- A variable of a scope as the engine holds it. -/
def existing (cx : Context σ) (scope : Scope) (name : String) : SessionM σ EngineVariable := do
  match ← ask (cx.lookupVariable scope name) told with
  | some v => return v
  | none => throw (.variableNotFound name)

/-- Setting a variable up to its assignment. -/
def toAssign (cx : Context σ) (h : Handle) (name expression : String) : SessionM σ Assignment := do
  read Session.ensureStopped
  let c ← read (·.resolve h)
  match c.kind with
  | .value _ => throw .setVariableUnsupported
  | .scope scope _ =>
    let old ← existing cx scope name
    let value ← ask (cx.evaluate scope expression) told
    let value ← convert cx name value old.declaredType
    return ⟨scope, old.declaredType, value⟩

/-- Setting a variable from its assignment on. -/
def carryOut (cx : Context σ) (name : String) (a : Assignment) : SessionM σ String := do
  ask (cx.assign a.scope name a.value) (assignError name a.declaredType)
  let updated ← existing cx a.scope name
  modify Session.forgetful
  let s ← get
  return (updated.value.display s.around.literals).text

/-- Assigns the value of an expression to a variable of a scope and gives its new text.  Children
listed before the assignment are forgotten. -/
def setVariable (cx : Context σ) (h : Handle) (name expression : String) : SessionM σ String := do
  let a ← toAssign cx h name expression
  carryOut cx name a

/-- Evaluates an expression among the local variables of a frame. -/
def evaluate (cx : Context σ) (expression : String) (frame : Nat) : SessionM σ Evaluated := do
  read Session.ensureStopped
  let s ← get
  if s.frames.length ≤ frame then throw (.unknownFrame frame)
  let value ← ask (cx.evaluate (.locals frame) expression) told
  let v ← makeVariable expression value none (.locals frame)
  return { value := v.value, typeName := v.typeName, isExpandable := v.isExpandable,
           handle := v.handle }

/-- Work on the registry, which never fails. -/
def onRegistry (f : Registry → EngineM σ (α × Registry)) : SessionM σ α := do
  let s ← get
  let (a, registry) ← (f s.registry : SessionM σ (α × Registry))
  set { s with registry }
  return a

end SessionM
end Stepwise
