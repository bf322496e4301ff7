import Stepwise.Engine.Context

namespace Stepwise

inductive Source where
  | file (path : Path) (arguments : List String)
  | inline (text : String)
deriving Repr, DecidableEq

inductive Outcome where
  | completed
  | aborted
  | failed (message : String)
deriving Repr, DecidableEq

inductive Resume where
  | continue
  | stepOver
  | stepIn
  | stepOut
  | abort
deriving Repr, DecidableEq

structure Halt where
  scriptPath : Option Path
  line : Nat
  column : Nat
  /-- The breakpoints that fired, none for a step or a requested break. -/
  breakpoints : List EngineId
  remote : Bool
deriving Repr, DecidableEq

structure Interrupts where
  breakRequested : Bool := false
  abortRequested : Bool := false
deriving Repr, DecidableEq

/-- What a run does next. -/
inductive Signal (ρ : Type) where
  /-- Queued work may be done now. -/
  | safePoint (run : ρ)
  /-- The run waits to be told how to go on. -/
  | halted (halt : Halt) (run : Resume → ρ)
  /-- The run rests for some milliseconds. -/
  | paused (milliseconds : Nat) (run : ρ)
  /-- The run waits for something other than its handler. -/
  | blocked (run : ρ)
  | finished (outcome : Outcome)
  | crashed

/-- An engine runs scripts.  A run is a state of its own, so that everything between two signals is
one step; requests to break or to abort are flags that anyone may raise at any time. -/
structure Engine where
  State : Type
  Run : Type
  context : Context State
  launch : Source → Run
  next : Run → State → Interrupts → Signal Run × State × Interrupts

/-- Serves the safe points and the halts of a run; `η` is what the handler remembers.  It works on
the run's own thread: it gives no answer if a call of the engine takes that thread down. -/
structure Handler (E : Engine) (η : Type) where
  safePoint : η → E.State → Interrupts → Option (η × E.State × Interrupts)
  halt : Halt → η → E.State → Interrupts → Option (Resume × η × E.State × Interrupts)

/-- A run together with all it depends on. -/
structure Progress (E : Engine) (η : Type) where
  run : E.Run
  memory : η
  state : E.State
  interrupts : Interrupts

/-- Where a number of steps leads. -/
inductive Drive (E : Engine) (η : Type) where
  | finished (outcome : Outcome) (memory : η) (state : E.State) (interrupts : Interrupts)
  | crashed (memory : η)
  | underway (progress : Progress E η)

namespace Engine

variable {E : Engine} {η : Type}

/-- One step of a run and the handler's answer to its signal. -/
def advance (handler : Handler E η) (p : Progress E η) : Drive E η :=
  match E.next p.run p.state p.interrupts with
  | (.safePoint run, state, interrupts) =>
    match handler.safePoint p.memory state interrupts with
    | some (memory, state, interrupts) => .underway ⟨run, memory, state, interrupts⟩
    | none => .crashed p.memory
  | (.halted halt run, state, interrupts) =>
    match handler.halt halt p.memory state interrupts with
    | some (action, memory, state, interrupts) => .underway ⟨run action, memory, state, interrupts⟩
    | none => .crashed p.memory
  | (.paused _ run, state, interrupts) => .underway ⟨run, p.memory, state, interrupts⟩
  | (.blocked run, state, interrupts) => .underway ⟨run, p.memory, state, interrupts⟩
  | (.finished outcome, state, interrupts) => .finished outcome p.memory state interrupts
  | (.crashed, _, _) => .crashed p.memory

/-- As many steps as given, fewer if the run ends. -/
def drive (handler : Handler E η) : Nat → Progress E η → Drive E η
  | 0, p => .underway p
  | n + 1, p =>
    match advance handler p with
    | .underway p => drive handler n p
    | ended => ended

end Engine
end Stepwise
