import Stepwise.Script.Run

namespace Stepwise.Script

namespace State

/-- The state with other breakpoints and another arena. -/
def dressed (s : State) (breakpoints : List Breakpoint) (lastId : EngineId) (arena : Arena) :
    State :=
  { s with breakpoints, lastId, arena }

/-- Only breakpoints and arenas differ. -/
def Alike (s t : State) : Prop :=
  t = s.dressed t.breakpoints t.lastId t.arena

namespace Alike

variable {s t u : State}

theorem refl (s : State) : s.Alike s := rfl

theorem trans (h : s.Alike t) (h' : t.Alike u) : s.Alike u := by
  unfold Alike at h h' ⊢
  rw [h] at h'
  exact h'

theorem dressed (s : State) (breakpoints : List Breakpoint) (lastId : EngineId) (arena : Arena) :
    s.Alike (s.dressed breakpoints lastId arena) := rfl

/-- At both ends of a halt the arena is cleared. -/
theorem clear (h : s.Alike t) : s.Alike { t with arena := [] } :=
  h.trans (.dressed t t.breakpoints t.lastId [])

theorem globals (h : s.Alike t) : t.globals = s.globals := by
  rw [h]
  rfl

theorem scriptVariables (h : s.Alike t) : t.scriptVariables = s.scriptVariables := by
  rw [h]
  rfl

theorem frames (h : s.Alike t) : t.frames = s.frames := by
  rw [h]
  rfl

theorem withFrames (h : s.Alike t) (frames : List Frame) :
    Alike { s with frames } { t with frames } := by
  rw [h]
  rfl

theorem evaluate (h : s.Alike t) : t.evaluate = s.evaluate := by
  rw [h]
  rfl

theorem argumentValue (h : s.Alike t) : t.argumentValue = s.argumentValue := by
  rw [h]
  rfl

theorem arguments (h : s.Alike t) (l : List (String × String)) :
    t.arguments l = s.arguments l := by
  induction l with
  | nil => rfl
  | cons argument rest ih => rw [State.arguments, State.arguments, h.evaluate, ih]

theorem enter (h : s.Alike t) (script : Loaded) (l : List String) :
    (s.enter script l).Alike (t.enter script l) := by
  unfold State.enter
  rw [h.argumentValue]
  rw [h]
  rfl

theorem noteLine (h : s.Alike t) (line : Nat) : (s.noteLine line).Alike (t.noteLine line) := by
  unfold State.noteLine
  rw [h.frames]
  cases s.frames with
  | nil => exact h
  | cons f rest => exact h.withFrames _

theorem withScope (h : s.Alike t) (scope : Scope) (vars : Variables) :
    (s.withScope scope vars).Alike (t.withScope scope vars) := by
  cases scope with
  | locals index =>
    simp only [State.withScope, h.frames]
    split
    · next f _ =>
      split
      · exact h.withFrames _
      · rw [h]
        rfl
    · exact h
  | script index | global =>
    rw [h]
    rfl

end Alike

theorem reach_alike (s : State) (path : Option Path) (line : Nat) (command : Option String) :
    s.Alike (s.reach path line command).2 := rfl

end State

/-- Both attempts end in alike states, or in the same error. -/
inductive AlikeResults : Except ScriptError State → Except ScriptError State → Prop
  | ok {s t : State} (h : s.Alike t) : AlikeResults (.ok s) (.ok t)
  | error (e : ScriptError) : AlikeResults (.error e) (.error e)

theorem AlikeResults.bind {α : Type} (x : Except ScriptError α)
    {f g : α → Except ScriptError State} (h : ∀ a, AlikeResults (f a) (g a)) :
    AlikeResults (x >>= f) (x >>= g) := by
  cases x with
  | error e => exact .error e
  | ok a => exact h a

/-- Both statements leave alike states with the same tasks, or end the run in the same way. -/
inductive AlikeCarried : Carried → Carried → Prop
  | on {s t : State} {i j : Interrupts} (h : s.Alike t) (hi : i.abortRequested = false)
    (hj : j.abortRequested = false) (tasks : List Task) :
    AlikeCarried (.on s i tasks) (.on t j tasks)
  | failed (message : String) : AlikeCarried (.failed message) (.failed message)
  | crashed : AlikeCarried .crashed .crashed

namespace State.Alike

variable {s t : State} {i j : Interrupts}

theorem store (h : s.Alike t) (scope : Scope) (name : String) (value : Value)
    (declared : Option String) :
    AlikeResults (s.store scope name value declared) (t.store scope name value declared) := by
  have hs : t.scope scope = s.scope scope := by
    rw [h]
    rfl
  have he : t.enums = s.enums := by
    rw [h]
    rfl
  unfold State.store
  rw [hs, he]
  refine .bind _ fun vars => ?_
  cases declared with
  | some type => exact .bind _ fun value => .ok (h.withScope scope _)
  | none =>
    dsimp only
    cases (vars.find? name).bind (·.declaredType) with
    | some type => exact .bind _ fun value => .ok (h.withScope scope _)
    | none => exact .ok (h.withScope scope _)

theorem ofExcept (hi : i.abortRequested = false) (hj : j.abortRequested = false)
    (tasks : List Task) {a b : Except ScriptError State} (h : AlikeResults a b) :
    AlikeCarried (.ofExcept i tasks a) (.ofExcept j tasks b) := by
  cases h with
  | ok h => exact .on h hi hj tasks
  | error e =>
    simp only [Carried.ofExcept]
    cases e.report? with
    | none => exact .crashed
    | some report => exact .failed _

/-- A statement does the same in alike states, whatever breaks were requested. -/
theorem carryOut (h : s.Alike t) (hi : i.abortRequested = false) (hj : j.abortRequested = false)
    (script : Loaded) (p : Point) :
    AlikeCarried (s.carryOut script i p) (t.carryOut script j p) := by
  unfold State.carryOut
  cases p.effect with
  | assign name expression declared =>
    refine ofExcept hi hj _ ?_
    rw [h.evaluate]
    exact .bind _ fun value => h.store (.locals 0) name value declared
  | set name value => exact ofExcept hi hj _ (h.store (.locals 0) name value none)
  | pass => exact .on h hi hj _
  | command name =>
    dsimp only
    split
    · refine .on h ?_ ?_ _
      · exact hi
      · exact hj
    · split
      · exact .crashed
      · exact .on h hi hj _
  | call function arguments =>
    dsimp only
    split
    · exact .failed _
    · refine ofExcept hi hj _ ?_
      rw [h.arguments, h.frames]
      exact .bind _ fun bound => .ok (h.withFrames _)

end State.Alike
end Stepwise.Script
