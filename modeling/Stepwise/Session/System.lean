import Stepwise.Session.Request

namespace Stepwise

inductive Command where
  | serve (call : Nat) (request : Request)
  | execute (source : Source) (execution : Nat)
  | resume (action : Resume)
  | shutdown
deriving Repr, DecidableEq

inductive Execution where
  | pending
  | ended (outcome : Outcome)
  /-- It was never begun or its thread went down. -/
  | lost
deriving Repr, DecidableEq

/-- What became of a request in the hands of the engine's thread. -/
inductive Reply where
  | given (result : Result)
  /-- The request was passed over or lost. -/
  | dropped
deriving Repr

/-- How far a client has come with an operation. -/
inductive Phase where
  | entered
  /-- A request has passed its first look at the session. -/
  | admitted
  /-- The session was alive when the request looked. -/
  | ready
  /-- The request is queued or being served. -/
  | awaiting (reply : Option Reply)
  /-- The session has been left; the thread has yet to be told. -/
  | leaving
  /-- The thread has been told to end. -/
  | joining
  | returned (result : Result)
deriving Repr

structure Call where
  operation : Operation
  /-- The caller has cancelled. -/
  cancelled : Bool := false
  /-- The caller has given up waiting. -/
  abandoned : Bool := false
  phase : Phase := .entered
deriving Repr

inductive Post (ρ : Type) where
  | idle
  | safePoint (run : ρ) (execution : Nat)
  | halted (run : Resume → ρ) (execution : Nat)

def Post.execution? {ρ : Type} : Post ρ → Option Nat
  | .idle => none
  | .safePoint _ execution => some execution
  | .halted _ execution => some execution

/-- What the engine's thread is doing.  `closing` says that it was told to end while the script
ran. -/
inductive Worker (ρ : Type) where
  | taking (post : Post ρ)
  /-- It has picked a request and is about to serve it. -/
  | serving (post : Post ρ) (call : Nat) (request : Request)
  | running (run : ρ) (execution : Nat) (closing : Bool)
  /-- The engine has halted and the session is about to be told. -/
  | halting (halt : Halt) (run : Resume → ρ) (execution : Nat)
  /-- The script has ended and the session is about to be told. -/
  | completing (outcome : Outcome) (execution : Nat) (closing : Bool)
  /-- It takes no more commands, and the session is about to be told. -/
  | exiting (crashed : Bool)
  | exited

/-- A session at work: its clients, the queue of commands and the engine's thread.  Everything done
under the session's lock is one step; between two steps of a client or of the thread anything else
may happen. -/
structure System (E : Engine) where
  session : Session
  /-- The thread went down while it held the lock. -/
  poisoned : Bool := false
  /-- Commands to the thread, the oldest first. -/
  commands : List Command := []
  /-- The thread takes commands, or will. -/
  alive : Bool := true
  /-- Someone has told the thread to end and waits for it. -/
  joined : Bool := false
  worker : Worker E.Run := .taking .idle
  engine : E.State
  interrupts : Interrupts := {}
  calls : List Call := []
  executions : List Execution := []

namespace System

variable {E : Engine}

def setPhase (s : System E) (call : Nat) (phase : Phase) : System E :=
  { s with calls := s.calls.modify call fun c => { c with phase } }

def setExecution (s : System E) (execution : Nat) (e : Execution) : System E :=
  { s with executions := s.executions.set execution e }

/-- The reply to a request; a caller that does not wait any more does not see it. -/
def reply (s : System E) (call : Nat) (r : Reply) : System E :=
  { s with calls := s.calls.modify call fun c =>
      match c.phase with
      | .awaiting _ => { c with phase := .awaiting (some r) }
      | _ => c }

/-- A command is queued, unless the thread takes none any more. -/
def send (s : System E) (c : Command) : Option (System E) :=
  if s.alive then some { s with commands := s.commands ++ [c] } else none

def resume (s : System E) (control : Control) (action : Resume) : Result × System E :=
  match s.session.ensureLive with
  | .error e => (.error e, s)
  | .ok () =>
    if s.session.runState = .stopped then
      let s := { s with session := s.session.leaveStop .running }
      match s.send (.resume action) with
      | some s => (.ok .done, s)
      | none => (.error .engineTerminated, s)
    else (.error (.invalidState control s.session.runState), s)

def execute (s : System E) (source : Source) : Result × System E :=
  match s.session.ensureLive with
  | .error e => (.error e, s)
  | .ok () =>
    if s.session.executing then (.error (.invalidState .execute s.session.runState), s)
    else
      let index := s.executions.length
      match s.send (.execute source index) with
      | some s =>
        (.ok (.execution index),
          { s with
            session := { s.session with executing := true, runState := .running }
            executions := s.executions ++ [.pending] })
      | none => (.error .engineTerminated, s)

def requestBreak (s : System E) : Result × System E :=
  match s.session.ensureLive with
  | .error e => (.error e, s)
  | .ok () =>
    if s.session.runState = .running ∧ s.session.executing then
      (.ok .done, { s with interrupts := { s.interrupts with breakRequested := true } })
    else (.error (.invalidState .break s.session.runState), s)

def requestAbort (s : System E) : Result × System E :=
  match s.session.ensureLive with
  | .error e => (.error e, s)
  | .ok () =>
    match s.session.runState with
    | .stopped =>
      let s := { s with session := s.session.leaveStop .aborting }
      match s.send (.resume .abort) with
      | some s => (.ok .done, s)
      | none => (.error .engineTerminated, s)
    | state =>
      if state = .running ∧ s.session.executing then
        (.ok .done,
          { s with
            session := { s.session with runState := .aborting }
            interrupts := { s.interrupts with abortRequested := true } })
      else (.error (.invalidState .abort state), s)

/-- Ends the session: a halted script is resumed to abort, a running one is asked to. -/
def leave (s : System E) : System E :=
  let s :=
    if s.session.runState = .stopped then (s.send (.resume .abort)).getD s
    else if s.session.executing then
      { s with interrupts := { s.interrupts with abortRequested := true } }
    else s
  { s with session := s.session.terminate }

/-- An operation that is done at once under the lock. -/
def atOnce (s : System E) : Operation → Result × System E
  | .execute source => s.execute source
  | .continue => s.resume .continue .continue
  | .stepOver => s.resume .stepOver .stepOver
  | .stepIn => s.resume .stepIn .stepIn
  | .stepOut => s.resume .stepOut .stepOut
  | .break => s.requestBreak
  | .abort => s.requestAbort
  | .breakpoints => (.ok (.breakpoints s.session.registry.breakpoints), s)
  | .stackFrames => (s.session.stackFrames.map .frames, s)
  | .scopes frame => ((s.session.scopes frame).map .scopes, s)
  | .request _ | .disconnect | .drop => (.ok .done, s)

/-- The request's last look at the session before it is queued. -/
def recheck (s : System E) (call : Nat) : System E :=
  if s.poisoned then s.setPhase call (.returned (.error .lockPoisoned))
  else
    match s.session.ensureLive with
    | .error e => s.setPhase call (.returned (.error e))
    | .ok () => s.setPhase call .ready

def enter (s : System E) (call : Nat) (operation : Operation) : System E :=
  match operation with
  | .drop => (if s.poisoned then s else s.leave).setPhase call .leaving
  | operation =>
    if s.poisoned then s.setPhase call (.returned (.error .lockPoisoned))
    else
      match operation with
      | .request r =>
        match r.precheck s.session with
        | .error e => s.setPhase call (.returned (.error e))
        | .ok (some answer) => s.setPhase call (.returned (.ok answer))
        | .ok none => s.setPhase call .admitted
      | .disconnect => s.leave.setPhase call .leaving
      | operation =>
        let (result, s) := s.atOnce operation
        s.setPhase call (.returned result)

/-- The next step of a client's operation; none while it has to wait and once it has returned. -/
def advance (s : System E) (call : Nat) : Option (System E) :=
  match s.calls[call]? with
  | none => none
  | some c =>
    match c.phase with
    | .entered => some (s.enter call c.operation)
    | .admitted => some (s.recheck call)
    | .ready =>
      match c.operation with
      | .request r =>
        match s.send (.serve call r) with
        | some s => some (s.setPhase call (.awaiting none))
        | none => some (s.setPhase call (.returned (.error .engineTerminated)))
      | _ => none
    | .awaiting none => none
    | .awaiting (some (.given result)) => some (s.setPhase call (.returned result))
    | .awaiting (some .dropped) =>
      some (s.setPhase call
        (.returned (.error (if c.cancelled then .cancelled else .engineTerminated))))
    | .leaving =>
      if s.joined then some (s.setPhase call (.returned (.ok .done)))
      else
        let s := { s with joined := true }
        some (((s.send .shutdown).getD s).setPhase call .joining)
    | .joining =>
      match s.worker with
      | .exited => some (s.setPhase call (.returned (.ok .done)))
      | _ => none
    | .returned _ => none

/-- A client that waits for a reply gives up: because it has cancelled, or else because its time
is over, and then the request is abandoned. -/
def giveUp (s : System E) (call : Nat) : Option (System E) :=
  match s.calls[call]? with
  | none => none
  | some c =>
    match c.phase with
    | .awaiting _ =>
      if c.cancelled then some (s.setPhase call (.returned (.error .cancelled)))
      else
        let s := { s with calls := s.calls.modify call fun c => { c with abandoned := true } }
        some (s.setPhase call (.returned (.error .timeout)))
    | _ => none

/-- The requests and executions that are lost with commands nobody takes. -/
def discard (s : System E) : List Command → System E
  | [] => s
  | .serve call _ :: rest => (s.reply call .dropped).discard rest
  | .execute _ execution :: rest => (s.setExecution execution .lost).discard rest
  | _ :: rest => s.discard rest

def close (s : System E) (crashed : Bool) : System E :=
  { s.discard s.commands with commands := [], alive := false, worker := .exiting crashed }

/-- The thread goes down with the execution it was busy with. -/
def crash (s : System E) (execution : Option Nat) (poisoned : Bool) : System E :=
  let s :=
    match execution with
    | some e => s.setExecution e .lost
    | none => s
  ({ s with poisoned := s.poisoned || poisoned }).close true

/-- A request is passed over if its caller has cancelled or given up. -/
def isAbandoned (s : System E) (call : Nat) : Bool :=
  s.calls[call]?.any fun c => c.cancelled || c.abandoned

/-- Ends the thread as soon as the script allows. -/
def shutDownRunning (s : System E) (run : E.Run) (execution : Nat) : System E :=
  { s with
    interrupts := { s.interrupts with abortRequested := true }
    worker := .running run execution true }

/-- The thread takes a command at one of its posts. -/
def take (s : System E) (post : Post E.Run) (c : Command) : System E :=
  match c, post with
  | .serve call request, post =>
    if s.isAbandoned call then s.reply call .dropped
    else { s with worker := .serving post call request }
  | .execute source execution, .idle =>
    { s with worker := .running (E.launch source) execution false }
  | .execute _ execution, _ => s.setExecution execution .lost
  | .resume action, .halted run execution =>
    { s with worker := .running (run action) execution false }
  | .resume _, _ => s
  | .shutdown, .idle => s.close false
  | .shutdown, .safePoint run execution => s.shutDownRunning run execution
  | .shutdown, .halted run execution => s.shutDownRunning (run .abort) execution

def serve (s : System E) (post : Post E.Run) (call : Nat) (request : Request) : System E :=
  if s.poisoned then
    { s with worker := .taking post }.reply call (.given (.error .lockPoisoned))
  else
    match ((request.serve E.context s.session.around.home).run.run s.session).run s.engine with
    | (none, engine) =>
      (({ s with engine }).reply call .dropped).crash (Post.execution? post) true
    | (some (result, session), engine) =>
      { s with session, engine, worker := .taking post }.reply call (.given result)

def run (s : System E) (r : E.Run) (execution : Nat) (closing : Bool) :
    Option (System E × Nat) :=
  match E.next r s.engine s.interrupts with
  | (signal, engine, interrupts) =>
    let after := { s with engine, interrupts }
    match signal with
    | .safePoint r =>
      if closing then some ({ after with worker := .running r execution closing }, 0)
      else some ({ after with worker := .taking (.safePoint r execution) }, 0)
    | .halted h k =>
      if closing then some ({ after with worker := .running (k .abort) execution closing }, 0)
      else some ({ after with worker := .halting h k execution }, 0)
    | .paused ms r => some ({ after with worker := .running r execution closing }, ms)
    | .blocked _ => none
    | .finished outcome =>
      some ({ after with worker := .completing outcome execution closing }, 0)
    | .crashed => some (after.crash (some execution) false, 0)

/-- Tells the session of a halt; if it refuses, the script is aborted. -/
def tellHalt (s : System E) (h : Halt) (k : Resume → E.Run) (execution : Nat) : System E :=
  match (s.session.halt E.context h).run s.engine with
  | (none, engine) => ({ s with engine }).crash (some execution) true
  | (some (accepted, session), engine) =>
    { s with
      session, engine
      worker :=
        if accepted then .taking (.halted k execution) else .running (k .abort) execution false }

def tellEnd (s : System E) (outcome : Outcome) (execution : Nat) (closing : Bool) : System E :=
  let s := { s with session := s.session.complete outcome }.setExecution execution (.ended outcome)
  if closing then s.close false else { s with worker := .taking .idle }

/-- One step of the engine's thread and the milliseconds it takes; none while it has to wait and
once it has ended. -/
def work (s : System E) : Option (System E × Nat) :=
  match s.worker with
  | .taking post =>
    match s.commands with
    | c :: rest => some ({ s with commands := rest }.take post c, 0)
    | [] =>
      match post with
      | .safePoint run execution => some ({ s with worker := .running run execution false }, 0)
      | _ => none
  | .serving post call request => some (s.serve post call request, 0)
  | .running r execution closing => s.run r execution closing
  | .halting h k execution => some (s.tellHalt h k execution, 0)
  | .completing outcome execution closing => some (s.tellEnd outcome execution closing, 0)
  | .exiting crashed =>
    some ({ s with session := s.session.exit crashed, worker := .exited }, 0)
  | .exited => none

end System

/-- What those who wait for stops and for events do with their ends of the queues. -/
inductive Reception where
  | takeStop (cancelled : Bool)
  | cloneStops
  | dropStops (receiver : Nat)
  | takeEvent
  | subscribe
  | unsubscribe (relay : Nat)
  | fetch (relay : Nat)
  | handOver (relay : Nat)
  | receive (relay : Nat)
deriving Repr, DecidableEq

/-- The session keeps its own receiving end of the stops, number 0, as long as it lives. -/
def Session.receive (s : Session) : Reception → Option Session
  | .takeStop cancelled => some { s with stops := (s.stops.take cancelled).2 }
  | .cloneStops => some { s with stops := s.stops.cloneReceiver }
  | .dropStops receiver =>
    if receiver = 0 then none else some { s with stops := s.stops.dropReceiver receiver }
  | .takeEvent => s.feed.take?.map fun (_, feed) => { s with feed }
  | .subscribe => some { s with feed := s.feed.subscribe }
  | .unsubscribe relay => some { s with feed := s.feed.unsubscribe relay }
  | .fetch relay => (s.feed.fetch? relay).map fun feed => { s with feed }
  | .handOver relay => (s.feed.handOver? relay).map fun feed => { s with feed }
  | .receive relay => (s.feed.receive? relay).map fun (_, feed) => { s with feed }

namespace System

def opened (around : Surroundings) (engine : E.State) (interrupts : Interrupts) : System E :=
  { session := { around }, engine, interrupts }

inductive Action where
  | begin (operation : Operation) (cancelled : Bool)
  | cancel (call : Nat)
  | advance (call : Nat)
  | giveUp (call : Nat)
  | receive (reception : Reception)
  | work
deriving Repr, DecidableEq

def begin (s : System E) (operation : Operation) (cancelled : Bool) : System E :=
  { s with calls := s.calls ++ [{ operation, cancelled }] }

def step (s : System E) : Action → Option (System E)
  | .begin operation cancelled => some (s.begin operation cancelled)
  | .cancel call =>
    some { s with calls := s.calls.modify call fun c => { c with cancelled := true } }
  | .advance call => s.advance call
  | .giveUp call => s.giveUp call
  | .receive reception => (s.session.receive reception).map fun session => { s with session }
  | .work => s.work.map (·.1)

/-- The states that some interleaving leads to. -/
inductive Reaches : System E → System E → Prop
  | refl (s : System E) : Reaches s s
  | step {s t u : System E} (a : Action) : Reaches s t → t.step a = some u → Reaches s u

/-- Where a list of steps leads, if each of them can be taken. -/
def follow (s : System E) : List Action → Option (System E)
  | [] => some s
  | a :: rest => (s.step a).bind fun t => t.follow rest

end System
end Stepwise
