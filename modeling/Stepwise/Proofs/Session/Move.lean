import Stepwise.Proofs.Session.Reception

namespace Stepwise

variable {ρ : Type} {E : Engine}

def Command.execution? : Command → Option Nat
  | .execute _ execution => some execution
  | _ => none

def Command.isResume : Command → Bool
  | .resume _ => true
  | _ => false

/-- A halted thread that takes the command goes on. -/
def Command.leavesHalt : Command → Bool
  | .resume _ => true
  | .shutdown => true
  | _ => false

def Post.isHalted : Post ρ → Bool
  | .halted _ _ => true
  | _ => false

/-- The execution that the thread is busy with. -/
def Worker.execution? : Worker ρ → Option Nat
  | .taking post => post.execution?
  | .serving post _ _ => post.execution?
  | .running _ execution _ => some execution
  | .halting _ _ execution => some execution
  | .completing _ execution _ => some execution
  | .exiting _ => none
  | .exited => none

/-- The thread sits in a halt: it waits for a command there, or it serves a request. -/
def Worker.isHalted : Worker ρ → Bool
  | .taking post => post.isHalted
  | .serving post _ _ => post.isHalted
  | _ => false

/-- The thread takes no more commands. -/
def Worker.isEnding : Worker ρ → Bool
  | .exiting _ => true
  | .exited => true
  | _ => false

theorem Worker.execution?_of_isHalted {w : Worker ρ} (h : w.isHalted = true) :
    ∃ execution, w.execution? = some execution := by
  have post : ∀ {p : Post ρ}, p.isHalted = true → ∃ execution, p.execution? = some execution := by
    intro p hp
    cases p with
    | halted run execution => exact ⟨execution, rfl⟩
    | _ => cases hp
  cases w with
  | taking p => exact post h
  | serving p call request => exact post h
  | _ => cases h

theorem Worker.isEnding_of_isHalted {w : Worker ρ} (h : w.isHalted = true) :
    w.isEnding = false := by
  cases w with
  | exiting | exited => cases h
  | _ => rfl

/-- What clients and the thread share. -/
structure Shared (ρ : Type) where
  session : Session
  poisoned : Bool
  commands : List Command
  alive : Bool
  worker : Worker ρ
  executions : List Execution

namespace Shared

def send (s : Shared ρ) (c : Command) : Shared ρ :=
  if s.alive then { s with commands := s.commands ++ [c] } else s

def terminate (s : Shared ρ) : Shared ρ :=
  { s with session := s.session.terminate }

/-- Executions that will never end. -/
def lose (executions : List Execution) (lost : List Nat) : List Execution :=
  lost.foldl (fun es execution => es.set execution .lost) executions

/-- The thread takes no more commands; queued executions are lost. -/
def close (s : Shared ρ) (crashed : Bool) : Shared ρ :=
  { s with
    executions := lose s.executions (s.commands.filterMap Command.execution?)
    commands := []
    alive := false
    worker := .exiting crashed }

/-- Executions that have been accepted and have neither ended nor been lost. -/
def inFlight (s : Shared ρ) : List Nat :=
  s.worker.execution?.toList ++ s.commands.filterMap Command.execution?

section Send

variable (s : Shared ρ) (c : Command)

@[simp] theorem session_send : (s.send c).session = s.session := by
  unfold send
  split <;> rfl

@[simp] theorem alive_send : (s.send c).alive = s.alive := by
  unfold send
  split <;> rfl

@[simp] theorem poisoned_send : (s.send c).poisoned = s.poisoned := by
  unfold send
  split <;> rfl

@[simp] theorem worker_send : (s.send c).worker = s.worker := by
  unfold send
  split <;> rfl

@[simp] theorem executions_send : (s.send c).executions = s.executions := by
  unfold send
  split <;> rfl

theorem commands_send :
    (s.send c).commands = if s.alive then s.commands ++ [c] else s.commands := by
  unfold send
  split <;> rfl

/-- The thread can be told before the session ends or after. -/
theorem terminate_send :
    (s.send c).terminate = Shared.send { s with session := s.session.terminate } c := by
  unfold send terminate
  split <;> rfl

end Send

end Shared

/-- Where one step of a script leads, if it does not take the thread down. -/
inductive Ran (execution : Nat) : Bool → Worker ρ → Prop
  | on (run : ρ) (closing : Bool) : Ran execution closing (.running run execution closing)
  | safePoint (run : ρ) : Ran execution false (.taking (.safePoint run execution))
  | halted (halt : Halt) (run : Resume → ρ) : Ran execution false (.halting halt run execution)
  | ended (outcome : Outcome) (closing : Bool) :
    Ran execution closing (.completing outcome execution closing)

/-- What one step can do.  The moves of clients come first, then those of the thread. -/
inductive Move : Shared ρ → Shared ρ → Prop
  | stay (s : Shared ρ) : Move s s
  | receive (s : Shared ρ) (reception : Reception) {session : Session}
    (received : s.session.receive reception = some session) : Move s { s with session }
  /-- A client resumes or aborts a halted script. -/
  | leaveStop (s : Shared ρ) (next : RunState) (action : Resume)
    (stopped : s.session.runState = .stopped) (onward : next = .running ∨ next = .aborting) :
    Move s (Shared.send { s with session := s.session.leaveStop next } (.resume action))
  | execute (s : Shared ρ) (source : Source) (live : s.session.runState ≠ .terminated)
    (free : s.session.executing = false) (alive : s.alive = true) :
    Move s { s with
      session := { s.session with executing := true, runState := .running }
      commands := s.commands ++ [.execute source s.executions.length]
      executions := s.executions ++ [.pending] }
  | askAbort (s : Shared ρ) (running : s.session.runState = .running)
    (busy : s.session.executing = true) :
    Move s { s with session := { s.session with runState := .aborting } }
  /-- A client disconnects; the thread is still to be told. -/
  | leave (s : Shared ρ) :
    Move s (Shared.terminate
      (if s.session.runState = .stopped then s.send (.resume .abort) else s))
  | ask (s : Shared ρ) (call : Nat) (request : Request) (alive : s.alive = true) :
    Move s { s with commands := s.commands ++ [.serve call request] }
  | shutDown (s : Shared ρ) (alive : s.alive = true)
    (left : s.session.runState = .terminated) :
    Move s { s with commands := s.commands ++ [.shutdown] }
  | pass (s : Shared ρ) (post : Post ρ) (call : Nat) (request : Request) (rest : List Command)
    (taking : s.worker = .taking post) (queued : s.commands = .serve call request :: rest) :
    Move s { s with commands := rest }
  | pick (s : Shared ρ) (post : Post ρ) (call : Nat) (request : Request) (rest : List Command)
    (taking : s.worker = .taking post) (queued : s.commands = .serve call request :: rest) :
    Move s { s with commands := rest, worker := .serving post call request }
  | serve (s : Shared ρ) (post : Post ρ) (call : Nat) (request : Request) {session : Session}
    (serving : s.worker = .serving post call request) (same : s.session.SameHalt session) :
    Move s { s with session, worker := .taking post }
  | crash (s : Shared ρ) (poisoned : Bool) (working : s.worker.isEnding = false) :
    Move s (Shared.close { s with
      executions := Shared.lose s.executions s.worker.execution?.toList
      poisoned := s.poisoned || poisoned } true)
  | launch (s : Shared ρ) (run : ρ) (source : Source) (execution : Nat) (rest : List Command)
    (idle : s.worker = .taking .idle) (queued : s.commands = .execute source execution :: rest) :
    Move s { s with commands := rest, worker := .running run execution false }
  | refuse (s : Shared ρ) (post : Post ρ) (busy : Nat) (source : Source) (execution : Nat)
    (rest : List Command) (taking : s.worker = .taking post) (run : post.execution? = some busy)
    (queued : s.commands = .execute source execution :: rest) :
    Move s { s with commands := rest, executions := s.executions.set execution .lost }
  | resume (s : Shared ρ) (run : Resume → ρ) (execution : Nat) (action : Resume)
    (rest : List Command) (halted : s.worker = .taking (.halted run execution))
    (queued : s.commands = .resume action :: rest) :
    Move s { s with commands := rest, worker := .running (run action) execution false }
  | drop (s : Shared ρ) (post : Post ρ) (action : Resume) (rest : List Command)
    (taking : s.worker = .taking post) (running : post.isHalted = false)
    (queued : s.commands = .resume action :: rest) : Move s { s with commands := rest }
  | stop (s : Shared ρ) (rest : List Command) (idle : s.worker = .taking .idle)
    (queued : s.commands = .shutdown :: rest) :
    Move s (Shared.close { s with commands := rest } false)
  | stopRun (s : Shared ρ) (post : Post ρ) (run : ρ) (execution : Nat) (rest : List Command)
    (taking : s.worker = .taking post) (busy : post.execution? = some execution)
    (queued : s.commands = .shutdown :: rest) :
    Move s { s with commands := rest, worker := .running run execution true }
  | goOn (s : Shared ρ) (run : ρ) (execution : Nat)
    (taking : s.worker = .taking (.safePoint run execution)) (empty : s.commands = []) :
    Move s { s with worker := .running run execution false }
  | run (s : Shared ρ) (run : ρ) (execution : Nat) (closing : Bool) {worker : Worker ρ}
    (running : s.worker = .running run execution closing) (ran : Ran execution closing worker) :
    Move s { s with worker }
  | halt (s : Shared ρ) (halt : Halt) (run : Resume → ρ) (execution : Nat)
    (stack : List EngineFrame) (halting : s.worker = .halting halt run execution)
    (accepted : s.session.runState = .running ∨ s.session.runState = .stopped) :
    Move s { s with
      session := s.session.hold halt stack, worker := .taking (.halted run execution) }
  | refuseHalt (s : Shared ρ) (halt : Halt) (run : Resume → ρ) (execution : Nat)
    (halting : s.worker = .halting halt run execution)
    (refused : s.session.runState = .aborting ∨ s.session.runState = .terminated) :
    Move s { s with worker := .running (run .abort) execution false }
  | complete (s : Shared ρ) (outcome : Outcome) (execution : Nat)
    (completing : s.worker = .completing outcome execution false) :
    Move s { s with
      session := s.session.complete outcome
      executions := s.executions.set execution (.ended outcome)
      worker := .taking .idle }
  | completeLast (s : Shared ρ) (outcome : Outcome) (execution : Nat)
    (completing : s.worker = .completing outcome execution true) :
    Move s (Shared.close { s with
      session := s.session.complete outcome
      executions := s.executions.set execution (.ended outcome) } false)
  | exit (s : Shared ρ) (crashed : Bool) (exiting : s.worker = .exiting crashed) :
    Move s { s with session := s.session.exit crashed, worker := .exited }

end Stepwise
