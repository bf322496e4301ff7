import Stepwise.Script.Engine
import Stepwise.Proofs.Engine.Returns
import Stepwise.Proofs.Script.Alike

namespace Stepwise.Script

/-- Computations over the engine's context that assign nothing. -/
inductive Observing : {α : Type} → EngineM State α → Prop
  | pure {α : Type} (a : α) : Observing (pure a)
  | bind {α β : Type} {m : EngineM State α} {f : α → EngineM State β} :
    Observing m → (∀ a, Observing (f a)) → Observing (m >>= f)
  | setLineBreakpoint (path : Path) (line : Nat) (column : Option Nat) (condition : Option String)
    (hitCount : Option Nat) :
    Observing (context.setLineBreakpoint path line column condition hitCount)
  | setCommandBreakpoint (name : String) (condition : Option String) (hitCount : Option Nat) :
    Observing (context.setCommandBreakpoint name condition hitCount)
  | clearBreakpoints (scope : BreakpointScope) : Observing (context.clearBreakpoints scope)
  | breakpoints (scope : BreakpointScope) : Observing (context.breakpoints scope)
  | callStack : Observing context.callStack
  | listVariables (scope : Scope) : Observing (context.listVariables scope)
  | lookupVariable (scope : Scope) (name : String) : Observing (context.lookupVariable scope name)
  | children (value : Reference) : Observing (context.children value)
  | evaluate (scope : Scope) (expression : String) : Observing (context.evaluate scope expression)
  | coerce (value : Description) (type : String) : Observing (context.coerce value type)

namespace State

/-- A relation of states that telling of values leads along. -/
structure Told (R : State → State → Prop) : Prop where
  refl (s : State) : R s s
  trans {s t u : State} : R s t → R t u → R s u
  describe (s : State) (value : Value) : R s (s.describe value).2

/-- A relation of states that telling of values leads along, and so does work on breakpoints. -/
structure Observed (R : State → State → Prop) : Prop extends Told R where
  register (s : State) (breakpoints : List Breakpoint) (lastId : EngineId) :
    R s { s with breakpoints, lastId }

namespace Told

variable {R : State → State → Prop}

theorem describeVariables (hR : Told R) (s : State) (vars : Variables) :
    R s (s.describeVariables vars).2 := by
  induction vars generalizing s with
  | nil => exact hR.refl s
  | cons v rest ih => exact hR.trans (hR.describe s v.value) (ih _)

theorem describeChildren (hR : Told R) (s : State) (children : List (ChildKey × Value)) :
    R s (s.describeChildren children).2 := by
  induction children generalizing s with
  | nil => exact hR.refl s
  | cons child rest ih => exact hR.trans (hR.describe s child.2) (ih _)

end Told

theorem describe_alike (s : State) (value : Value) : s.Alike (s.describe value).2 := rfl

theorem alike_observed : Observed Alike where
  refl := .refl
  trans h h' := h.trans h'
  describe := describe_alike
  register s breakpoints lastId := .dressed s breakpoints lastId s.arena

end State

/-- If there is an answer, it comes with a related state. -/
def AnswersIn {α : Type} (R : State → State → Prop) (s : State)
    (x : Except ScriptError (α × State)) : Prop :=
  ∀ r, x = .ok r → R s r.2

namespace AnswersIn

variable {α β : Type} {R : State → State → Prop} {s : State}

theorem ok {r : α × State} (h : R s r.2) : AnswersIn R s (.ok r) := by
  intro r' hr
  cases hr
  exact h

theorem bind (x : Except ScriptError β) {f : β → Except ScriptError (α × State)}
    (h : ∀ b, AnswersIn R s (f b)) : AnswersIn R s (x >>= f) := by
  intro r hr
  cases x with
  | error e => cases hr
  | ok b => exact h b r hr

theorem map (x : Except ScriptError β) {g : β → α × State} (h : ∀ b, R s (g b).2) :
    AnswersIn R s (x.map g) := by
  intro r hr
  cases x with
  | error e => cases hr
  | ok b =>
    obtain rfl := Except.ok.inj hr
    exact h b

theorem addBreakpoint (hR : State.Observed R) (s : State) (location : Location)
    (condition : Option String) (hitCount : Option Nat) :
    AnswersIn R s (s.addBreakpoint location condition hitCount) := by
  unfold State.addBreakpoint
  cases condition with
  | none => exact ok (hR.register s _ _)
  | some text =>
    dsimp only
    cases Expr.parse text with
    | error e =>
      intro r hr
      cases hr
    | ok e => exact ok (hR.register s _ _)

end AnswersIn

/-- The operation leaves a related state, also if it takes the thread down. -/
def Leaves {α : Type} (R : State → State → Prop) (m : EngineM State α) : Prop :=
  ∀ s : State, R s (m.run s).2

namespace Leaves

variable {α β : Type} {R : State → State → Prop}

theorem answer (hR : State.Told R) {f : State → Except ScriptError (α × State)}
    (h : ∀ s, AnswersIn R s (f s)) : Leaves R (answer f) := by
  intro s
  simp only [Script.answer, OptionT.run, OptionT.mk]
  cases hf : f s with
  | ok r => exact h s r hf
  | error e =>
    dsimp only
    cases e.report? with
    | none => exact hR.refl s
    | some report => exact hR.refl s

theorem bind (hR : State.Told R) {m : EngineM State α} {f : α → EngineM State β}
    (hm : Leaves R m) (hf : ∀ a, Leaves R (f a)) : Leaves R (m >>= f) := by
  intro s
  have hs := hm s
  rw [EngineM.run_bind]
  rcases hr : m.run s with ⟨_ | a, t⟩
  · rw [hr] at hs
    exact hs
  · rw [hr] at hs
    exact hR.trans hs (hf a t)

end Leaves

theorem Observing.leaves {R : State → State → Prop} (hR : State.Observed R) {α : Type}
    {m : EngineM State α} (h : Observing m) : Leaves R m := by
  have hT := hR.toTold
  induction h with
  | pure a => exact hR.refl
  | bind _ _ ihm ihf => exact ihm.bind hT ihf
  | setLineBreakpoint | setCommandBreakpoint =>
    exact .answer hT fun s => .addBreakpoint hR s _ _ _
  | clearBreakpoints scope => exact fun s => hR.register s _ s.lastId
  | breakpoints | callStack => exact hR.refl
  | listVariables scope =>
    exact .answer hT fun s => .map _ fun vars => hT.describeVariables s vars
  | lookupVariable scope name =>
    refine .answer hT fun s => .bind _ fun vars => ?_
    split
    · exact .ok (hR.refl s)
    · exact .ok (hR.describe s _)
  | children value =>
    exact .answer hT fun s => .bind _ fun v => .ok (hT.describeChildren s v.children)
  | evaluate scope expression => exact .answer hT fun s => .map _ fun v => hR.describe s v
  | coerce value type =>
    exact .answer hT fun s => .bind _ fun v => .bind _ fun converted =>
      .ok (hR.describe s converted)

theorem Observing.leavesAlike {α : Type} {m : EngineM State α} (h : Observing m) :
    Leaves State.Alike m :=
  h.leaves State.alike_observed

end Stepwise.Script
