import Mathlib
import Stepwise.Script.Engine

namespace Stepwise

/-- Further requests were made, and none was taken back. -/
structure Interrupts.Raised (i j : Interrupts) : Prop where
  breaks : i.breakRequested = true → j.breakRequested = true
  aborts : i.abortRequested = true → j.abortRequested = true

theorem Interrupts.Raised.refl (i : Interrupts) : i.Raised i := ⟨id, id⟩

namespace Engine

variable {E : Engine} {η : Type} {handler : Handler E η}

/-- A run comes to its end under a handler; before any step requests may be made. -/
inductive RunsTo (handler : Handler E η) :
    Progress E η → Outcome → η → E.State → Interrupts → Prop
  | finished {p : Progress E η} {i pending : Interrupts} {outcome : Outcome} {memory : η}
    {state : E.State} (raised : p.interrupts.Raised i)
    (last : advance handler { p with interrupts := i } = .finished outcome memory state pending) :
    RunsTo handler p outcome memory state pending
  | onward {p q : Progress E η} {i pending : Interrupts} {outcome : Outcome} {memory : η}
    {state : E.State} (raised : p.interrupts.Raised i)
    (first : advance handler { p with interrupts := i } = .underway q)
    (rest : RunsTo handler q outcome memory state pending) :
    RunsTo handler p outcome memory state pending

theorem RunsTo.of_drive {p : Progress E η} {n : Nat} {outcome : Outcome} {memory : η}
    {state : E.State} {pending : Interrupts}
    (h : drive handler n p = .finished outcome memory state pending) :
    RunsTo handler p outcome memory state pending := by
  induction n generalizing p with
  | zero => cases h
  | succ n ih =>
    rw [drive] at h
    cases hp : advance handler p with
    | underway q =>
      rw [hp] at h
      exact .onward (.refl _) hp (ih h)
    | finished =>
      rw [hp] at h
      cases h
      exact .finished (.refl _) hp
    | crashed =>
      rw [hp] at h
      cases h

end Engine

namespace Script
open Engine

variable {catalog : Catalog} {s : State} {i : Interrupts}

/-- The step has not launched a run but is one of a run: the run goes on, or it has ended and no
request is pending. -/
inductive Settles : Signal Run × State × Interrupts → Prop
  | safePoint (script : Loaded) (stepping : Stepping) (p : Point) (s : State) (i : Interrupts) :
    Settles (.safePoint (.checking script stepping p), s, i)
  | paused (milliseconds : Nat) (script : Loaded) (stepping : Stepping) (tasks : List Task)
    (s : State) (i : Interrupts) :
    Settles (.paused milliseconds (.running script stepping tasks), s, i)
  | halted (halt : Halt) (script : Loaded) (p : Point) (depth : Nat) (s : State)
    (i : Interrupts) : Settles (.halted halt (.resumed script p depth), s, i)
  | finished (outcome : Outcome) (s : State) : Settles (.finished outcome, s, {})
  | crashed (s : State) (i : Interrupts) : Settles (.crashed, s, i)

theorem proceed_settles (s : State) (i : Interrupts) (script : Loaded) (stepping : Stepping)
    (tasks : List Task) : Settles (proceed s i script stepping tasks) := by
  unfold proceed
  split
  · exact .safePoint ..
  · exact .paused ..
  · exact .finished ..

theorem execute_settles (s : State) (i : Interrupts) (script : Loaded) (stepping : Stepping)
    (p : Point) : Settles (execute s i script stepping p) := by
  unfold execute
  split
  · exact proceed_settles ..
  · exact .finished ..
  · exact .crashed ..

theorem check_settles (s : State) (i : Interrupts) (script : Loaded) (stepping : Stepping)
    (p : Point) : Settles (check s i script stepping p) := by
  unfold check
  split
  · exact .finished ..
  · dsimp only
    split
    · exact execute_settles ..
    · exact .halted ..

/-- The run does not start with a source that is not found. -/
def Run.Found (catalog : Catalog) (run : Run) : Prop :=
  ∀ source message, run = .launching source → catalog.find source ≠ .error message

theorem next_settles {run : Run} (h : run.Found catalog) (s : State) (i : Interrupts) :
    Settles (next catalog run s i) := by
  cases run with
  | launching source =>
    unfold next
    dsimp only
    split
    · next message hf => exact absurd hf (h source message rfl)
    · exact proceed_settles ..
  | running script stepping tasks => exact proceed_settles ..
  | checking script stepping p => exact check_settles ..
  | resumed script p depth action =>
    cases action with
    | abort => exact .finished ..
    | «continue» | stepOver | stepIn | stepOut => exact execute_settles ..

variable {η : Type} {handler : Handler (scriptEngine catalog) η}
  {p q : Progress (scriptEngine catalog) η} {outcome : Outcome} {memory : η} {state : State}
  {pending : Interrupts}

/-- A step goes on with a run that has been launched, or leaves no request pending. -/
theorem advance_found (h : p.run.Found catalog) :
    (∀ q, advance handler p = .underway q → q.run.Found catalog) ∧
      ∀ outcome memory state pending,
        advance handler p = .finished outcome memory state pending → pending = {} := by
  have hn := next_settles h p.state p.interrupts
  unfold advance
  generalize hr : (scriptEngine catalog).next p.run p.state p.interrupts = r
  replace hn : Settles r := hr ▸ hn
  cases hn with
  | paused =>
    constructor
    · intro q hq
      cases hq
      intro source message hl
      cases hl
    · intro _ _ _ _ hq
      cases hq
  | safePoint script stepping point t i =>
    cases ha : handler.safePoint p.memory t i with
    | none =>
      simp only [ha]
      exact ⟨nofun, nofun⟩
    | some answer =>
      simp only [ha]
      refine ⟨fun q hq => ?_, nofun⟩
      cases hq
      exact fun _ _ => nofun
  | halted halt script point depth t i =>
    cases ha : handler.halt halt p.memory t i with
    | none =>
      simp only [ha]
      exact ⟨nofun, nofun⟩
    | some answer =>
      simp only [ha]
      refine ⟨fun q hq => ?_, nofun⟩
      cases hq
      exact fun _ _ => nofun
  | finished =>
    constructor
    · intro q hq
      cases hq
    · intro _ _ _ _ hq
      cases hq
      rfl
  | crashed =>
    constructor
    · intro q hq
      cases hq
    · intro _ _ _ _ hq
      cases hq

theorem nothing_pending (h : RunsTo handler p outcome memory state pending)
    (hp : p.run.Found catalog) : pending = {} := by
  induction h with
  | @finished p i _ _ _ _ raised last =>
    exact (advance_found (p := { p with interrupts := i }) hp).2 _ _ _ _ last
  | @onward p q i _ _ _ _ raised first rest ih =>
    exact ih ((advance_found (p := { p with interrupts := i }) hp).1 q first)

/-- Whatever was requested before a run and during it, and whatever its handler does: when a script
that was found has ended, nothing is pending.  A source that is not found ends at once with a
message, and all that was requested stays pending. -/
theorem pending_after_run {source : Source} {before : η}
    (h : RunsTo handler ⟨Run.launching source, before, s, i⟩ outcome memory state pending) :
    (∀ found, catalog.find source = .ok found → pending = {}) ∧
      ∀ message, catalog.find source = .error message →
        outcome = .failed message ∧ memory = before ∧ state = s ∧ i.Raised pending := by
  refine ⟨fun found hf => nothing_pending h ?_, fun message hf => ?_⟩
  · rintro _ message ⟨⟩ hm
    cases hf.symm.trans hm
  · have ha (j : Interrupts) : advance handler ⟨Run.launching source, before, s, j⟩ =
        .finished (.failed message) before s j := by
      simp [advance, scriptEngine, next, hf]
    cases h with
    | finished raised last =>
      rw [ha] at last
      cases last
      exact ⟨rfl, rfl, rfl, raised⟩
    | onward raised first rest =>
      rw [ha] at first
      cases first

/-- Lets the run go on from every halt, and counts the halts. -/
def haltCounter (catalog : Catalog) : Handler (scriptEngine catalog) Nat where
  safePoint count s i := some (count, s, i)
  halt _ count s i := some (.continue, count + 1, s, i)

/-- A text that is to be run, by an engine that knows one text and has these requests pending. -/
def given (text : String) (i : Interrupts) :
    Progress (scriptEngine { inlines := [("date", { body := [.command 1 "Get-Date"] })] }) Nat :=
  ⟨Run.launching (.inline text), 0, {}, i⟩

/-- In so many steps the run completes after a number of halts, and nothing is pending. -/
def completes (n halts : Nat) (p : Progress (scriptEngine catalog) Nat) : Bool :=
  match drive (haltCounter catalog) n p with
  | .finished outcome count _ pending =>
    outcome == .completed && (count == halts && pending == {})
  | _ => false

theorem exists_of_completes {p : Progress (scriptEngine catalog) Nat} {n halts : Nat}
    (h : completes n halts p = true) :
    ∃ state, drive (haltCounter catalog) n p = .finished .completed halts state {} := by
  unfold completes at h
  split at h
  · next outcome count state pending hd =>
    obtain ⟨ho, hp⟩ := Bool.and_eq_true_iff.mp h
    obtain ⟨hc, hp⟩ := Bool.and_eq_true_iff.mp hp
    rw [hd, beq_iff_eq.mp ho, beq_iff_eq.mp hc, beq_iff_eq.mp hp]
    exact ⟨state, rfl⟩
  · cases h

/-- A break that is requested before a script runs halts it once, and then nothing is pending. -/
theorem given_not_pending :
    (∃ state pending, RunsTo (haltCounter _) (given "date" { breakRequested := true })
      .completed 1 state pending ∧ pending = {}) ∧
    ∃ pending, RunsTo (haltCounter _) (given "absent" { abortRequested := true })
      (.failed "Unknown command 'absent'.") 0 {} pending ∧ pending.abortRequested = true := by
  have hc : completes 3 1 (given "date" { breakRequested := true }) = true := by cbv
  obtain ⟨state, hd⟩ := exists_of_completes hc
  have hr := RunsTo.of_drive hd
  have ha : RunsTo (haltCounter _) (given "absent" { abortRequested := true })
      (.failed "Unknown command 'absent'.") 0 {} { abortRequested := true } :=
    .of_drive (n := 1) rfl
  exact ⟨⟨state, {}, hr, (pending_after_run hr).1 _ rfl⟩, _, ha,
    ((pending_after_run ha).2 _ rfl).2.2.2.aborts rfl⟩

/-- Nothing is found to run, and the request to break stays pending: it halts the next run, which
would not have halted. -/
theorem request_outlives_run :
    drive (haltCounter _) 1 (given "absent" { breakRequested := true }) =
      .finished (.failed "Unknown command 'absent'.") 0 {} { breakRequested := true } ∧
    (∃ state, drive (haltCounter _) 3 (given "date" { breakRequested := true }) =
      .finished .completed 1 state {}) ∧
    ∃ state, drive (haltCounter _) 3 (given "date" {}) = .finished .completed 0 state {} := by
  have halted : completes 3 1 (given "date" { breakRequested := true }) = true := by cbv
  have unhalted : completes 3 0 (given "date" {}) = true := by cbv
  exact ⟨rfl, exists_of_completes halted, exists_of_completes unhalted⟩

end Script
end Stepwise
