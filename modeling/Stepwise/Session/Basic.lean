import Stepwise.Engine.Basic
import Stepwise.Handle
import Stepwise.StopQueue

namespace Stepwise

inductive RunState where
  /-- Not halted: a script runs, or the engine is idle. -/
  | running
  /-- Halted at a breakpoint, after a step or on request. -/
  | stopped
  /-- An abort was requested and the script has not ended yet. -/
  | aborting
  | terminated
deriving Repr, DecidableEq

def RunState.name : RunState → String
  | .running => "Running"
  | .stopped => "Stopped"
  | .aborting => "Aborting"
  | .terminated => "Terminated"

inductive SessionEvent where
  | stopped (stop : StoppedEvent)
  | running
  | executionCompleted (outcome : Outcome)
  | terminated
deriving Repr, DecidableEq

def SessionEvent.isStopped : SessionEvent → Bool
  | .stopped _ => true
  | _ => false

/-- The operations that are only valid in some states. -/
inductive Control where
  | execute
  | continue
  | stepOver
  | stepIn
  | stepOut
  | break
  | abort
deriving Repr, DecidableEq

def Control.name : Control → String
  | .execute => "execute"
  | .continue => "continue"
  | .stepOver => "step over"
  | .stepIn => "step in"
  | .stepOut => "step out"
  | .break => "break"
  | .abort => "abort"

inductive SessionError where
  /-- A read or a write while the engine is not halted. -/
  | notStopped (state : RunState)
  | staleHandle (handle : Handle)
  | unknownHandle (handle : Handle)
  | unknownFrame (index : Nat)
  | variableNotFound (name : String)
  | evaluation (message : String)
  /-- A value does not fit the declared type of a variable. -/
  | coercion (name type message : String)
  /-- Only variables of a scope can be set. -/
  | setVariableUnsupported
  | invalidState (control : Control) (state : RunState)
  | terminated
  | engineTerminated
  | timeout
  | cancelled
  | handleSpaceExhausted
  /-- The engine's thread went down while it held the session's lock. -/
  | lockPoisoned
deriving Repr, DecidableEq

namespace SessionError

def message : SessionError → String
  | .notStopped state => "debugger is not stopped (current state: " ++ state.name ++ ")"
  | .staleHandle h =>
    "variable handle " ++ toString h.number.toInt ++
      " belongs to a previous stop, re-fetch the scopes"
  | .unknownHandle h => "unknown variable handle " ++ toString h.number.toInt
  | .unknownFrame index => "no stack frame at index " ++ toString index
  | .variableNotFound name => "variable '" ++ name ++ "' does not exist in this scope"
  | .evaluation message => message
  | .coercion name type message =>
    "cannot convert value for '" ++ name ++ "' to type [" ++ type ++ "]: " ++ message
  | .setVariableUnsupported => "variables can only be set on scope containers"
  | .invalidState control state => control.name ++ " is not valid while " ++ state.name
  | .terminated => "debug session has terminated"
  | .engineTerminated => "script engine thread is no longer running"
  | .timeout => "timed out waiting for the script engine"
  | .cancelled => "request cancelled"
  | .handleSpaceExhausted => "variable handle space exhausted"
  | .lockPoisoned =>
    "internal error: session mutex poisoned: poisoned lock: another task failed inside"

/-- Whether the error says that the session is over. -/
def isFatal : SessionError → Bool
  | .terminated | .engineTerminated => true
  | _ => false

def ofHandle : HandleError → SessionError
  | .stale h => .staleHandle h
  | .unknown h => .unknownHandle h

end SessionError

/-- The handles of the scopes of a frame. -/
structure FrameScopes where
  auto : Handle
  locals : Handle
  script : Handle
  global : Handle
deriving Repr, DecidableEq

structure StackFrame where
  index : Nat
  functionName : String
  scriptPath : Path
  line : Nat
  column : Nat
  scopes : FrameScopes
deriving Repr, DecidableEq

structure NamedScope where
  name : String
  handle : Handle
deriving Repr, DecidableEq

structure Evaluated where
  value : String
  typeName : Option String
  isExpandable : Bool
  handle : Option Handle
deriving Repr, DecidableEq

end Stepwise
