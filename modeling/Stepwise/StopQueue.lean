import Stepwise.Breakpoint.Basic
import Stepwise.Queue

namespace Stepwise

/-- One halt of the debugger, as the client sees it. -/
structure StoppedEvent where
  /-- The local copy, for a remote script. -/
  scriptPath : Path
  isRemoteSession : Bool
  /-- The path on the remote machine. -/
  remoteScriptPath : Option Path
  line : Nat
  column : Nat
  /-- The breakpoints that caused the halt. -/
  breakpoints : List Breakpoint
deriving Repr, DecidableEq

inductive TakeError where
  | timeout
  | closed
  | cancelled
deriving Repr, DecidableEq

def TakeError.message : TakeError → String
  | .timeout => "timed out waiting for the debugger to stop"
  | .closed => "stop event channel closed"
  | .cancelled => "wait for stop event cancelled"

/-- The ends are numbered from 0; each remembers whether it is still held. -/
structure StopQueue where
  stops : Queue StoppedEvent := {}
  senders : List Bool := [true]
  receivers : List Bool := [true]
deriving Repr, DecidableEq

namespace StopQueue

def hasSender (q : StopQueue) : Bool :=
  q.senders.contains true

def hasReceiver (q : StopQueue) : Bool :=
  q.receivers.contains true

/-- The stop is accepted as long as some receiving end is held. -/
def push (q : StopQueue) (stop : StoppedEvent) : Bool × StopQueue :=
  if q.hasReceiver then (true, { q with stops := q.stops.push stop }) else (false, q)

/-- Takes the oldest stop, if there is one, without waiting. -/
def tryTake (q : StopQueue) : Except TakeError (Option StoppedEvent) × StopQueue :=
  match q.stops.pop? with
  | some (stop, stops) => (.ok (some stop), { q with stops })
  | none => (if q.hasSender then .ok none else .error .closed, q)

/-- Takes the oldest stop at the end of a wait; a caller that has cancelled gets none. -/
def take (cancelled : Bool) (q : StopQueue) : Except TakeError StoppedEvent × StopQueue :=
  if cancelled then (.error .cancelled, q)
  else
    match q.tryTake with
    | (.ok (some stop), q) => (.ok stop, q)
    | (.ok none, q) => (.error .timeout, q)
    | (.error e, q) => (.error e, q)

/-- A take need not wait. -/
def ready (q : StopQueue) : Bool :=
  !q.stops.pending.isEmpty || !q.hasSender

def cloneSender (q : StopQueue) : StopQueue :=
  { q with senders := q.senders ++ [true] }

def cloneReceiver (q : StopQueue) : StopQueue :=
  { q with receivers := q.receivers ++ [true] }

def dropSender (q : StopQueue) (i : Nat) : StopQueue :=
  { q with senders := q.senders.set i false }

/-- With the last receiving end everything that was still to be taken goes too. -/
def dropReceiver (q : StopQueue) (i : Nat) : StopQueue :=
  let q := { q with receivers := q.receivers.set i false }
  if q.hasReceiver then q else { q with stops := q.stops.discard }

end StopQueue
end Stepwise
