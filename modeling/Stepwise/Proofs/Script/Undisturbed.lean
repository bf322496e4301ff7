import Stepwise.Proofs.Script.Alike

namespace Stepwise.Script

/-- A safe point as a script passes it. -/
structure Passage where
  line : Nat
  command : Option String
  /-- The number of frames. -/
  depth : Nat
deriving Repr, DecidableEq

/-- How a script ended, and the variables it left. -/
inductive Conclusion where
  | finished (outcome : Outcome) (globals scriptVariables : Variables)
  | crashed
deriving Repr

/-- What is seen of a script that goes on, or of one that ended. -/
inductive View where
  | underway (globals scriptVariables : Variables)
  | ended (ending : Conclusion)
deriving Repr

/-- Where a script stands. -/
inductive Stance where
  | launching (source : Source)
  | between (script : Loaded) (tasks : List Task)
  | before (script : Loaded) (point : Point)

/-- What a step of a script comes to. -/
inductive Turn where
  | on (stance : Stance) (s : State)
  | ended (ending : Conclusion)

namespace State

def passage (s : State) (p : Point) : Passage := ⟨p.line, p.command?, s.frames.length⟩

def finished (s : State) (outcome : Outcome) : Turn :=
  .ended (.finished outcome s.globals s.scriptVariables)

/-- Goes on to the next statement and notes its line. -/
def goOn (s : State) (script : Loaded) (tasks : List Task) : Turn :=
  match arrive tasks s.frames with
  | (.at p, frames) => .on (.before script p) ({ s with frames }.noteLine p.line)
  | (.resting tasks, frames) => .on (.between script tasks) { s with frames }
  | (.done, _) => s.finished .completed

end State

/-- The next step of a script by itself. -/
def Stance.turn (catalog : Catalog) (stance : Stance) (s : State) : Turn :=
  match stance with
  | .launching source =>
    match catalog.find source with
    | .error message => s.finished (.failed message)
    | .ok (script, arguments) =>
      (s.enter script arguments).goOn script [.block script.program.body]
  | .between script tasks => s.goOn script tasks
  | .before script p =>
    match s.carryOut script {} p with
    | .on s _ tasks => s.goOn script tasks
    | .failed message => s.finished (.failed message)
    | .crashed => .ended .crashed

def Turn.passage? : Turn → Option Passage
  | .on (.before _ p) s => some (s.passage p)
  | _ => none

def Turn.view : Turn → View
  | .on _ s => .underway s.globals s.scriptVariables
  | .ended e => .ended e

/-- The safe points passed so far, and what was reached by then. -/
structure Journey (δ : Type) where
  passed : List Passage
  reached : δ

/-- A script by itself, as many steps as given or up to its end. -/
def Stance.journey (catalog : Catalog) (stance : Stance) (s : State) : Nat → Journey Turn
  | 0 => ⟨[], .on stance s⟩
  | n + 1 =>
    let j := stance.journey catalog s n
    match j.reached with
    | .on stance s => ⟨j.passed ++ (stance.turn catalog s).passage?.toList, stance.turn catalog s⟩
    | .ended _ => j

section

variable {catalog : Catalog} {stance u : Stance} {s t : State} {n : Nat}

theorem Stance.journey_succ (h : (stance.journey catalog s n).reached = .on u t) :
    stance.journey catalog s (n + 1) =
      ⟨(stance.journey catalog s n).passed ++ (u.turn catalog t).passage?.toList,
        u.turn catalog t⟩ := by
  rw [journey]
  simp only [h]

theorem Stance.journey_succ_of_ended {e : Conclusion}
    (h : (stance.journey catalog s n).reached = .ended e) :
    stance.journey catalog s (n + 1) = stance.journey catalog s n := by
  rw [journey]
  simp only [h]

end

/-- What is seen of a script: the safe points passed so far and what it shows then. -/
structure Account where
  passed : List Passage
  view : View
deriving Repr

/-- What is seen of a script by itself in a number of steps. -/
def Stance.account (catalog : Catalog) (stance : Stance) (s : State) (n : Nat) : Account :=
  let j := stance.journey catalog s n
  ⟨j.passed, j.reached.view⟩

/-- The signal of a run tells what the script came to. -/
inductive Yields : Signal Run × State × Interrupts → Turn → Prop
  | safePoint {s t : State} {i : Interrupts} (script : Loaded) (stepping : Stepping) (p : Point)
    (h : s.Alike (t.noteLine p.line)) (hi : i.abortRequested = false) :
    Yields (.safePoint (.checking script stepping p), t, i) (.on (.before script p) s)
  | paused {s t : State} {i : Interrupts} (milliseconds : Nat) (script : Loaded)
    (stepping : Stepping) (tasks : List Task) (h : s.Alike t) (hi : i.abortRequested = false) :
    Yields (.paused milliseconds (.running script stepping tasks), t, i)
      (.on (.between script tasks) s)
  | finished (outcome : Outcome) (t : State) (i : Interrupts) :
    Yields (.finished outcome, t, i) (t.finished outcome)
  | crashed (t : State) (i : Interrupts) : Yields (.crashed, t, i) (.ended .crashed)

section

variable {s t : State} {i : Interrupts}

theorem State.Alike.finished (h : s.Alike t) (outcome : Outcome) :
    t.finished outcome = s.finished outcome := by
  rw [State.finished, State.finished, h.globals, h.scriptVariables]

/-- Noting a line leaves the number of frames and the variables. -/
theorem State.noteLine_keeps (s : State) (line : Nat) :
    (s.noteLine line).frames.length = s.frames.length ∧ (s.noteLine line).globals = s.globals ∧
      (s.noteLine line).scriptVariables = s.scriptVariables := by
  unfold State.noteLine
  split
  · exact ⟨rfl, rfl, rfl⟩
  · next f rest hf =>
    rw [hf]
    exact ⟨rfl, rfl, rfl⟩

theorem State.Alike.passage {p : Point} (h : s.Alike (t.noteLine p.line)) :
    t.passage p = s.passage p := by
  rw [State.passage, State.passage, ← h.frames, (t.noteLine_keeps p.line).1]

theorem conclude_yields (h : s.Alike t) (outcome : Outcome) :
    Yields (conclude t outcome) (s.finished outcome) := by
  rw [← h.finished]
  exact .finished outcome { t with frames := [], arena := [] } {}

theorem proceed_yields (h : s.Alike t) (hi : i.abortRequested = false) (script : Loaded)
    (stepping : Stepping) (tasks : List Task) :
    Yields (proceed t i script stepping tasks) (s.goOn script tasks) := by
  unfold proceed State.goOn
  rw [h.frames]
  rcases arrive tasks s.frames with ⟨p | tasks | _, frames⟩
  · exact .safePoint _ _ _ ((h.withFrames frames).noteLine p.line) hi
  · exact .paused _ _ _ _ (h.withFrames frames) hi
  · exact conclude_yields (h.withFrames frames) .completed

theorem execute_yields (catalog : Catalog) (h : s.Alike t) (hi : i.abortRequested = false)
    (script : Loaded) (stepping : Stepping) (p : Point) :
    Yields (execute t i script stepping p) (Stance.turn catalog (.before script p) s) := by
  have hc : AlikeCarried (s.carryOut script {} p) (t.carryOut script i p) :=
    h.carryOut rfl hi script p
  unfold execute Stance.turn
  dsimp only
  generalize s.carryOut script {} p = c at hc ⊢
  generalize t.carryOut script i p = d at hc ⊢
  cases hc with
  | on ht _ hj tasks => exact proceed_yields ht hj script stepping tasks
  | failed message => exact conclude_yields h (.failed message)
  | crashed => exact .crashed t i

theorem launch_yields (catalog : Catalog) (h : s.Alike t) (hi : i.abortRequested = false)
    (source : Source) :
    Yields (next catalog (.launching source) t i)
      (Stance.turn catalog (.launching source) s) := by
  unfold next Stance.turn
  dsimp only
  rcases catalog.find source with message | ⟨script, arguments⟩
  · dsimp only
    rw [← h.finished]
    exact .finished (.failed message) t i
  · exact proceed_yields (h.enter script arguments) hi script .off _

/-- Whatever the answer to a halt is, unless it is to abort, the statement is carried out. -/
theorem resume_yields (catalog : Catalog) (h : s.Alike t) (hi : i.abortRequested = false)
    (script : Loaded) (p : Point) (depth : Nat) {action : Resume} (ha : action ≠ .abort) :
    Yields (next catalog (.resumed script p depth action) t i)
      (Stance.turn catalog (.before script p) s) := by
  have hy := execute_yields catalog h.clear hi script (.after depth action) p
  cases action with
  | abort => exact absurd rfl ha
  | «continue» | stepOver | stepIn | stepOut => exact hy

/-- Without a request to abort, a statement is carried out or the run halts before it; either way
only breakpoints and the arena have changed since its line was noted. -/
theorem check_cases (hi : i.abortRequested = false) (script : Loaded) (stepping : Stepping)
    (p : Point) :
    ∃ u, (t.noteLine p.line).Alike u ∧
      (check t i script stepping p = execute u i script stepping p ∨
        ∃ halt depth, check t i script stepping p =
          (.halted halt (.resumed script p depth), u, { i with breakRequested := false })) := by
  unfold check
  rw [if_neg (by simp [hi])]
  dsimp only
  have hr := (t.noteLine p.line).reach_alike script.path p.line p.command?
  split
  · exact ⟨_, hr, .inl rfl⟩
  · exact ⟨_, hr.clear, .inr ⟨_, _, rfl⟩⟩

end
end Stepwise.Script
