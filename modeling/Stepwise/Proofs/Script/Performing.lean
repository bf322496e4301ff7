import Stepwise.Proofs.Engine.Strides

namespace Stepwise

/-- The requests there are when those of others have been heard. -/
def Interrupts.hear (i heard : Interrupts) : Interrupts where
  breakRequested := heard.breakRequested || i.breakRequested
  abortRequested := heard.abortRequested || i.abortRequested

namespace Engine

variable {E : Engine} {η : Type}

/-- The handler's answer to a signal. -/
def react (handler : Handler E η) (memory : η) : Signal E.Run × E.State × Interrupts → Drive E η
  | (.safePoint run, state, interrupts) =>
    match handler.safePoint memory state interrupts with
    | some (memory, state, interrupts) => .underway ⟨run, memory, state, interrupts⟩
    | none => .crashed memory
  | (.halted halt run, state, interrupts) =>
    match handler.halt halt memory state interrupts with
    | some (action, memory, state, interrupts) => .underway ⟨run action, memory, state, interrupts⟩
    | none => .crashed memory
  | (.paused _ run, state, interrupts) => .underway ⟨run, memory, state, interrupts⟩
  | (.blocked run, state, interrupts) => .underway ⟨run, memory, state, interrupts⟩
  | (.finished outcome, state, interrupts) => .finished outcome memory state interrupts
  | (.crashed, _, _) => .crashed memory

/-- Where a run gets from a signal on. -/
def follow (handler : Handler E η) (memory : η) (signal : Signal E.Run × E.State × Interrupts)
    (heard : List Interrupts) : Drive E η :=
  match react handler memory signal with
  | .underway p => driveHearing handler p heard
  | ended => ended

theorem driveHearing_cons (handler : Handler E η) (p : Progress E η) (i : Interrupts)
    (heard : List Interrupts) :
    driveHearing handler p (i :: heard) =
      follow handler p.memory (E.next p.run p.state (p.hear i).interrupts) heard := by
  rfl

end Engine

namespace Script
open Engine

/-- All that a statement depends on and changes.  A step ends where the run waits for its handler or
rests; before the next one begins the requests of others are heard. -/
structure Moment (η : Type) where
  memory : η
  state : State
  interrupts : Interrupts
  stepping : Stepping
  /-- What will be heard before each of the steps to come. -/
  heard : List Interrupts

/-- Why a statement does not come to its end. -/
inductive Exit where
  | failed (message : String)
  | aborted
  | crashed
  /-- There are no steps left. -/
  | underway
deriving DecidableEq

/-- What comes to its end or is given up, and the moment after it. -/
abbrev Doing (η : Type) := Moment η → Option Exit × Moment η

variable {catalog : Catalog} {η : Type}

namespace Doing

def skip : Doing η := fun m => (none, m)

def andThen (d e : Doing η) : Doing η := fun m =>
  match d m with
  | (none, m) => e m
  | exited => exited

def block (d : Statement → Doing η) : List Statement → Doing η
  | [] => skip
  | statement :: rest => (d statement).andThen (block d rest)

/-- As many rounds as given, each with the next value. -/
def rounds (start : Int → Doing η) (body : Doing η) : Nat → Int → Doing η
  | 0, _ => skip
  | n + 1, value => (start value).andThen (body.andThen (rounds start body n (value + 1)))

/-- Waits for the next step. -/
def await : Doing η := fun m =>
  match m.heard with
  | [] => (some .underway, m)
  | i :: heard =>
    (none, { m with heard, interrupts := m.interrupts.hear i })

/-- What is done in the innermost frame, which is removed however that ends. -/
def inFrame (d : Doing η) : Doing η := fun m =>
  match d m with
  | (some .underway, m) => (some .underway, m)
  | (some .crashed, m) => (some .crashed, m)
  | (exit, m) => (exit, { m with state := { m.state with frames := m.state.frames.tail } })

end Doing
open Doing

section
variable (handler : Handler (scriptEngine catalog) η) (script : Loaded)

def visit : Doing η := fun m =>
  match handler.safePoint m.memory m.state m.interrupts with
  | some (memory, state, interrupts) => await { m with memory, state, interrupts }
  | none => (some .crashed, m)

/-- The halt before a statement. -/
def hold (halt : Halt) (depth : Nat) : Doing η := fun m =>
  match handler.halt halt m.memory { m.state with arena := [] }
    { m.interrupts with breakRequested := false } with
  | some (action, memory, state, interrupts) =>
    (await.andThen fun m =>
      let m := { m with state := { m.state with arena := [] } }
      match action with
      | .abort => (some .aborted, m)
      | action => (none, { m with stepping := .after depth action }))
      { m with memory, state, interrupts }
  | none => (some .crashed, m)

/-- The safe point before a statement, and the halt if there is a reason for one. -/
def checkpoint (p : Point) : Doing η :=
  (visit handler).andThen fun m =>
    if m.interrupts.abortRequested then (some .aborted, m)
    else
      let (hits, state) := (m.state.noteLine p.line).reach script.path p.line p.command?
      let depth := state.frames.length
      if hits.isEmpty && !m.stepping.endsAt depth && !m.interrupts.breakRequested then
        (none, { m with state })
      else
        hold handler
          { scriptPath := script.path, line := p.line, column := 1, breakpoints := hits,
            remote := script.remote } depth { m with state }

def carried (p : Point) : Doing η := fun m =>
  match m.state.carryOut script m.interrupts p with
  | .on state interrupts _ => (none, { m with state, interrupts })
  | .failed message => (some (.failed message), m)
  | .crashed => (some .crashed, m)

def act (line : Nat) (effect : Effect) : Doing η :=
  (checkpoint handler script ⟨line, effect, []⟩).andThen (carried script ⟨line, effect, []⟩)

/-- Performs a statement.  With every statement inside another one a step is used up, so a number
above that of the steps to come never gets to zero. -/
def perform : Nat → Statement → Doing η
  | 0, _ => fun m => (some .underway, m)
  | _ + 1, .assign line name expression => act handler script line (.assign name expression none)
  | _ + 1, .declare line name type expression =>
    act handler script line (.assign name expression (some type))
  | _ + 1, .set line name value => act handler script line (.set name value)
  | _ + 1, .command line name => act handler script line (.command name)
  | n + 1, .count line name first last body =>
    rounds (fun value => act handler script line (.set name (.int (Int64.ofInt value))))
      (block (perform n) body) (last + 1 - first).toNat first
  | n + 1, .loop line body =>
    (act handler script line .pass).andThen
      ((block (perform n) body).andThen (await.andThen (perform n (.loop line body))))
  | n + 1, .call line function arguments =>
    (act handler script line (.call function arguments)).andThen
      -- The call of an unknown function has failed by now.
      (match script.program.function? function with
      | some body => inFrame (block (perform n) body)
      | none => skip)

/-- Where a run gets that goes on with the tasks. -/
def Moment.goOn (m : Moment η) (tasks : List Task) : Drive (scriptEngine catalog) η :=
  follow handler m.memory (proceed m.state m.interrupts script m.stepping tasks) m.heard

end

/-- The run ends as a statement was given up, and the frames there are then go with it, or it is
still underway. -/
inductive Exit.Ends (m : Moment η) : Exit → Drive (scriptEngine catalog) η → Prop
  | failed (message : String) :
    Ends m (.failed message)
      (.finished (.failed message) m.memory { m.state with frames := [], arena := [] } {})
  | aborted :
    Ends m .aborted (.finished .aborted m.memory { m.state with frames := [], arena := [] } {})
  | crashed : Ends m .crashed (.crashed m.memory)
  | underway (run : Run) : Ends m .underway (.underway ⟨run, m.memory, m.state, m.interrupts⟩)

/-- Where the run gets is where it gets from the moment after, with fewer steps than the limit, or
else it ends as was given up. -/
def Leads (limit : Nat) (run : Drive (scriptEngine catalog) η)
    (onward : Moment η → Drive (scriptEngine catalog) η) : Option Exit × Moment η → Prop
  | (none, m) => m.heard.length < limit ∧ run = onward m
  | (some exit, m) => exit.Ends m run

section
variable {handler : Handler (scriptEngine catalog) η} {script : Loaded} {m : Moment η}
  {limit more : Nat} {run : Drive (scriptEngine catalog) η}
  {onward further : Moment η → Drive (scriptEngine catalog) η} {d e : Doing η}
  {tasks rest : List Task}

theorem Leads.andThen (hd : Leads limit run onward (d m))
    (he : ∀ t, t.heard.length < limit → Leads more (onward t) further (e t)) :
    Leads more run further (d.andThen e m) := by
  unfold Doing.andThen
  generalize d m = done at hd ⊢
  obtain ⟨_ | exit, t⟩ := done
  · obtain ⟨hlt, rfl⟩ := hd
    exact he t hlt
  · exact hd

theorem Leads.mono {done : Option Exit × Moment η} (h : Leads limit run onward done)
    (hl : limit ≤ more) : Leads more run onward done := by
  rcases done with ⟨_ | exit, t⟩
  · exact ⟨Nat.lt_of_lt_of_le h.1 hl, h.2⟩
  · exact h

/-- A run that waits goes on when requests have been heard. -/
theorem await_leads (handler : Handler (scriptEngine catalog) η) (run : Stepping → Run)
    (m : Moment η) :
    Leads m.heard.length
      (driveHearing handler ⟨run m.stepping, m.memory, m.state, m.interrupts⟩ m.heard)
      (fun t =>
        follow handler t.memory (next catalog (run t.stepping) t.state t.interrupts) t.heard)
      (await m) := by
  obtain ⟨memory, state, interrupts, stepping, heard⟩ := m
  cases heard with
  | nil => exact .underway (run stepping)
  | cons i heard => exact ⟨Nat.lt_succ_self _, rfl⟩

theorem hold_leads (halt : Halt) (p : Point) (depth : Nat) (m : Moment η) :
    Leads m.heard.length
      (follow handler m.memory
        (.halted halt (.resumed script p depth), { m.state with arena := [] },
          { m.interrupts with breakRequested := false }) m.heard)
      (fun t => follow handler t.memory (execute t.state t.interrupts script t.stepping p) t.heard)
      (hold handler halt depth m) := by
  unfold follow react hold
  dsimp only
  cases handler.halt halt m.memory { m.state with arena := [] }
      { m.interrupts with breakRequested := false } with
  | none => exact .crashed
  | some answer =>
    obtain ⟨action, memory, state, interrupts⟩ := answer
    have hwait := await_leads handler (fun _ => .resumed script p depth action)
      ⟨memory, state, interrupts, m.stepping, m.heard⟩
    refine hwait.andThen fun t ht => ?_
    cases action with
    | abort => exact .aborted
    | «continue» | stepOver | stepIn | stepOut => exact ⟨ht, rfl⟩

theorem visit_leads (p : Point) (m : Moment η) :
    Leads m.heard.length
      (follow handler m.memory (.safePoint (.checking script m.stepping p), m.state, m.interrupts)
        m.heard)
      (fun t => follow handler t.memory (check t.state t.interrupts script t.stepping p) t.heard)
      (visit handler m) := by
  unfold follow react visit
  dsimp only
  cases handler.safePoint m.memory m.state m.interrupts with
  | none => exact .crashed
  | some answer =>
    exact await_leads handler (fun stepping => .checking script stepping p)
      ⟨answer.1, answer.2.1, answer.2.2, m.stepping, m.heard⟩

theorem checkpoint_leads (p : Point) (m : Moment η) :
    Leads m.heard.length
      (follow handler m.memory (.safePoint (.checking script m.stepping p), m.state, m.interrupts)
        m.heard)
      (fun t => follow handler t.memory (execute t.state t.interrupts script t.stepping p) t.heard)
      (checkpoint handler script p m) := by
  refine (visit_leads p m).andThen fun t ht => ?_
  dsimp only
  unfold check
  split
  · exact .aborted
  · dsimp only
    split
    · exact ⟨ht, rfl⟩
    · exact (hold_leads _ p _ _).mono (Nat.le_of_lt ht)

/-- What a statement opens when it is carried out. -/
def Effect.opens (script : Loaded) : Effect → List Task
  | .call function _ =>
    (script.program.function? function).elim [] fun body => [.block body, .leave]
  | _ => []

theorem carryOut_tasks (s : State) (i : Interrupts) (line : Nat) (effect : Effect)
    (tasks : List Task) :
    s.carryOut script i ⟨line, effect, tasks⟩ =
      match s.carryOut script i ⟨line, effect, []⟩ with
      | .on s i _ => .on s i (effect.opens script ++ tasks)
      | ended => ended := by
  have attempt (opened : List Task) (x : Except ScriptError State) :
      Carried.ofExcept i (opened ++ tasks) x =
        match Carried.ofExcept i opened x with
        | .on s i _ => .on s i (opened ++ tasks)
        | ended => ended := by
    cases x with
    | ok s => rfl
    | error e =>
      simp only [Carried.ofExcept]
      cases e.report? <;> rfl
  cases effect with
  | assign name expression declared => exact attempt [] _
  | set name value => exact attempt [] _
  | pass => rfl
  | command name =>
    simp only [State.carryOut]
    split
    · rfl
    · split <;> rfl
  | call function arguments =>
    simp only [State.carryOut, Effect.opens]
    cases script.program.function? function with
    | none => rfl
    | some body => exact attempt [.block body, .leave] _

theorem carried_leads (line : Nat) (effect : Effect) (m : Moment η) :
    Leads (m.heard.length + 1)
      (follow handler m.memory
        (execute m.state m.interrupts script m.stepping ⟨line, effect, rest⟩) m.heard)
      (fun t => t.goOn handler script (effect.opens script ++ rest))
      (carried script ⟨line, effect, []⟩ m) := by
  unfold execute carried
  rw [carryOut_tasks]
  cases m.state.carryOut script m.interrupts ⟨line, effect, []⟩ with
  | on s i tasks => exact ⟨Nat.lt_succ_self _, rfl⟩
  | failed message => exact .failed message
  | crashed => exact .crashed

/-- A statement that the tasks come to is carried out, and what it opens comes next. -/
theorem act_leads {line : Nat} {effect : Effect}
    (h : arrive tasks m.state.frames = (.at ⟨line, effect, rest⟩, m.state.frames)) :
    Leads m.heard.length (m.goOn handler script tasks)
      (fun t => t.goOn handler script (effect.opens script ++ rest))
      (act handler script line effect m) := by
  unfold Moment.goOn proceed
  rw [h]
  refine (checkpoint_leads ⟨line, effect, rest⟩ m).andThen fun t ht => ?_
  exact (carried_leads line effect t).mono ht

theorem goOn_congr {other : List Task}
    (h : arrive tasks m.state.frames = arrive other m.state.frames) :
    m.goOn handler script tasks = m.goOn handler script other := by
  unfold Moment.goOn proceed
  rw [h]

theorem goOn_nil (m : Moment η) (tasks : List Task) :
    m.goOn handler script (.block [] :: tasks) = m.goOn handler script tasks :=
  goOn_congr (by rw [arrive])

theorem goOn_leave (m : Moment η) (tasks : List Task) :
    m.goOn handler script (.leave :: tasks) =
      { m with state := { m.state with frames := m.state.frames.tail } }.goOn handler script
        tasks := by
  unfold Moment.goOn proceed
  rw [arrive]

/-- The doing leads from one list of tasks to another, as long as the steps to come are fewer than
the limit. -/
def Carries (handler : Handler (scriptEngine catalog) η) (script : Loaded) (limit : Nat)
    (d : Doing η) (tasks rest : List Task) : Prop :=
  ∀ m : Moment η, m.heard.length < limit →
    Leads (m.heard.length + 1) (m.goOn handler script tasks) (fun t => t.goOn handler script rest)
      (d m)

/-- The statement comes to its end before the others of its block. -/
def Performs (handler : Handler (scriptEngine catalog) η) (script : Loaded) (limit : Nat)
    (d : Statement → Doing η) : Prop :=
  ∀ statement others rest,
    Carries handler script limit (d statement) (.block (statement :: others) :: rest)
      (.block others :: rest)

theorem Carries.andThen {between : List Task} (hd : Carries handler script limit d tasks between)
    (he : Carries handler script limit e between rest) :
    Carries handler script limit (d.andThen e) tasks rest := by
  intro m hm
  refine (hd m hm).andThen fun t ht => ?_
  exact (he t (by omega)).mono ht

theorem Performs.block {perform : Statement → Doing η}
    (h : Performs handler script limit perform) (statements : List Statement) (rest : List Task) :
    Carries handler script limit (Doing.block perform statements) (.block statements :: rest)
      rest := by
  induction statements with
  | nil => exact fun m hm => ⟨Nat.lt_succ_self _, goOn_nil m rest⟩
  | cons statement others ih => exact (h statement others rest).andThen ih

theorem Carries.mono {less : Nat} (hd : Carries handler script limit d tasks rest)
    (hl : less ≤ limit) : Carries handler script less d tasks rest :=
  fun m hm => hd m (Nat.lt_of_lt_of_le hm hl)

theorem Performs.one {perform : Statement → Doing η} (h : Performs handler script limit perform)
    (statement : Statement) (rest : List Task) :
    Carries handler script limit (perform statement) (.block [statement] :: rest) rest := by
  intro m hm
  have hlead := h statement [] rest m hm
  simpa only [goOn_nil] using hlead

theorem Carries.inFrame (hd : Carries handler script limit d tasks (.leave :: rest)) :
    Carries handler script limit (inFrame d) tasks rest := by
  intro m hm
  have hlead := hd m hm
  unfold Doing.inFrame
  generalize m.goOn handler script tasks = run at hlead ⊢
  generalize d m = done at hlead ⊢
  rcases done with ⟨_ | _ | _ | _ | _, t⟩
  · exact ⟨hlead.1, hlead.2.trans (goOn_leave t rest)⟩
  all_goals
    cases hlead
    constructor

/-- A statement uses a step up, which what comes after it does not have. -/
theorem Carries.after_act {line : Nat} {effect : Effect} {between : List Task}
    (h : ∀ frames, arrive tasks frames = (.at ⟨line, effect, between⟩, frames))
    (he : Carries handler script limit e (effect.opens script ++ between) rest) :
    Carries handler script (limit + 1) ((act handler script line effect).andThen e) tasks rest := by
  intro m hm
  refine (act_leads (h _)).andThen fun t ht => ?_
  exact (he t (by omega)).mono (by omega)

theorem Carries.act {line : Nat} {effect : Effect}
    (h : ∀ frames, arrive tasks frames = (.at ⟨line, effect, rest⟩, frames))
    (ho : effect.opens script = []) :
    Carries handler script limit (act handler script line effect) tasks rest := by
  intro m _
  have hlead : Leads m.heard.length (m.goOn handler script tasks)
      (fun t => t.goOn handler script (effect.opens script ++ rest)) _ := act_leads (h _)
  rw [ho] at hlead
  exact hlead.mono (Nat.le_succ _)

/-- A loop rests before it starts again. -/
theorem Carries.after_rest {line : Nat} {body : List Statement}
    (he : Carries handler script limit e (.block [.loop line body] :: rest) rest) :
    Carries handler script limit (await.andThen e) (.again line body :: rest) rest := by
  intro m hm
  have hrest : m.goOn handler script (.again line body :: rest) =
      driveHearing handler ⟨Run.running script m.stepping (.block [.loop line body] :: rest),
        m.memory, m.state, m.interrupts⟩ m.heard := by
    unfold Moment.goOn proceed
    rw [arrive]
    rfl
  rw [hrest]
  refine (await_leads handler (fun stepping => .running script stepping _) m).andThen
    fun t ht => ?_
  exact (he t (by omega)).mono (by omega)

theorem rounds_carries {perform : Statement → Doing η}
    (h : Performs handler script limit perform) (line : Nat) (name : String) (last : Int)
    (body : List Statement) (n : Nat) (value : Int) (hn : (last + 1 - value).toNat = n) :
    Carries handler script (limit + 1)
      (rounds (fun value => Script.act handler script line (.set name (.int (Int64.ofInt value))))
        (Doing.block perform body) n value)
      (.iterate line name value last body :: rest) rest := by
  induction n generalizing value with
  | zero =>
    refine fun m _ => ⟨Nat.lt_succ_self _, goOn_congr ?_⟩
    rw [arrive, if_neg (by omega)]
  | succ n ih =>
    have hnext := ih (value + 1) (by omega)
    refine Carries.after_act (fun frames => ?_)
      ((h.block body _).andThen (hnext.mono (Nat.le_succ limit)))
    rw [arrive, if_pos (by omega)]

theorem arrive_count (line : Nat) (name : String) (first last : Int) (body others : List Statement)
    (rest : List Task) (frames : List Frame) :
    arrive (.block (.count line name first last body :: others) :: rest) frames =
      arrive (.iterate line name first last body :: .block others :: rest) frames := by
  rw [arrive, arrive]

/-- A run performs its statements. -/
theorem perform_performs (handler : Handler (scriptEngine catalog) η) (script : Loaded)
    (limit : Nat) : Performs handler script limit (perform handler script limit) := by
  induction limit with
  | zero => exact fun _ _ _ m hm => absurd hm (Nat.not_lt_zero _)
  | succ limit ih =>
    intro statement others rest
    cases statement with
    | assign | declare | set | command => exact .act (fun _ => by rw [arrive]) rfl
    | count line name first last body =>
      intro m hm
      rw [goOn_congr (arrive_count line name first last body others rest m.state.frames)]
      exact rounds_carries ih line name last body _ first rfl m hm
    | loop line body =>
      exact .after_act (fun _ => by rw [arrive])
        ((ih.block body _).andThen (.after_rest (ih.one _ _)))
    | call line function arguments =>
      refine .after_act (fun _ => by rw [arrive]) ?_
      dsimp only [Effect.opens]
      cases script.program.function? function with
      | none => exact fun m _ => ⟨Nat.lt_succ_self _, rfl⟩
      | some body => exact (ih.block body _).inFrame

theorem goOn_done (m : Moment η) :
    m.goOn handler script [] =
      .finished .completed m.memory { m.state with frames := [], arena := [] } {} := by
  unfold Moment.goOn proceed
  rw [arrive]
  rfl

/-- The moment at which a script starts. -/
def Moment.launched (script : Loaded) (arguments : List String) (memory : η) (s : State)
    (i : Interrupts) (heard : List Interrupts) : Moment η :=
  ⟨memory, s.enter script arguments, i, .off, heard⟩

theorem driveHearing_launching {source : Source} {arguments : List String}
    (hf : catalog.find source = .ok (script, arguments))
    (handler : Handler (scriptEngine catalog) η) (memory : η) (s : State) (i j : Interrupts)
    (heard : List Interrupts) :
    driveHearing handler ⟨Run.launching source, memory, s, i⟩ (j :: heard) =
      (Moment.launched script arguments memory s (i.hear j) heard).goOn handler script
        [.block script.program.body] := by
  rw [driveHearing_cons]
  dsimp only [scriptEngine, next]
  rw [hf]
  rfl

/-- A run performs the body of its script and has completed at its end. -/
theorem launch_leads {source : Source} {arguments : List String}
    (hf : catalog.find source = .ok (script, arguments))
    (handler : Handler (scriptEngine catalog) η) (memory : η) (s : State) (i j : Interrupts)
    (heard : List Interrupts) :
    Leads (heard.length + 1)
      (driveHearing handler ⟨Run.launching source, memory, s, i⟩ (j :: heard))
      (fun t => .finished .completed t.memory { t.state with frames := [], arena := [] } {})
      (block (perform handler script (heard.length + 1)) script.program.body
        (.launched script arguments memory s (i.hear j) heard)) := by
  have hblock := (perform_performs handler script (heard.length + 1)).block script.program.body []
  have hrun := hblock (.launched script arguments memory s (i.hear j) heard) (Nat.lt_succ_self _)
  simp only [goOn_done] at hrun
  rw [driveHearing_launching hf]
  exact hrun

end
end Script
end Stepwise
