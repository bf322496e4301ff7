import Stepwise.Session.Core

namespace Stepwise

/-- Requests are served by the engine's thread; all other operations are done by the client itself
under the session's lock. -/
inductive Request where
  | setLineBreakpoints (path : Path) (requests : List LineRequest)
  | setCommandBreakpoints (requests : List CommandRequest)
  | removeAllBreakpoints
  | expand (handle : Handle)
  | setVariable (handle : Handle) (name expression : String)
  | evaluate (expression : String) (frame : Nat)
deriving Repr, DecidableEq

inductive Operation where
  | request (request : Request)
  | execute (source : Source)
  | continue
  | stepOver
  | stepIn
  | stepOut
  | break
  | abort
  | disconnect
  /-- The session is given up: it is disconnected as far as that is possible. -/
  | drop
  | breakpoints
  | stackFrames
  | scopes (frame : Nat)
deriving Repr, DecidableEq

inductive Answer where
  | done
  | breakpoints (list : List Breakpoint)
  | children (list : List Variable)
  | text (shown : String)
  | evaluated (result : Evaluated)
  | frames (list : List StackFrame)
  | scopes (list : List NamedScope)
  | execution (index : Nat)
deriving Repr, DecidableEq

abbrev Result := Except SessionError Answer

namespace Request

/-- What is looked at before the engine's thread is asked at all; some requests are answered from
what is remembered. -/
def precheck (s : Session) : Request → Except SessionError (Option Answer)
  | .expand h => (s.cachedVariables h).map (·.map .children)
  | .setVariable _ _ _ => s.ensureStopped.map fun _ => none
  | .evaluate _ _ => s.ensureStopped.map fun _ => none
  | _ => .ok none

variable {σ : Type}

/-- The work itself, done under the session's lock. -/
def serve (cx : Context σ) (home : Home) : Request → SessionM σ Answer
  | .setLineBreakpoints path requests =>
    .breakpoints <$> SessionM.onRegistry (Registry.setLine cx home path requests)
  | .setCommandBreakpoints requests =>
    .breakpoints <$> SessionM.onRegistry (Registry.setCommands cx requests)
  | .removeAllBreakpoints =>
    SessionM.onRegistry fun r => (fun r => (.done, r)) <$> Registry.removeAll cx r
  | .expand h => .children <$> SessionM.expand cx h
  | .setVariable h name expression => .text <$> SessionM.setVariable cx h name expression
  | .evaluate expression frame => .evaluated <$> SessionM.evaluate cx expression frame

end Request
end Stepwise
