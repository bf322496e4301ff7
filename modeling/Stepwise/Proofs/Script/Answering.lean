import Stepwise.Proofs.Script.ReadingBack
import Stepwise.Proofs.Script.Telling

namespace Stepwise

/-- A use of a context: one of its operations with its arguments. -/
inductive EngineCall where
  | setLineBreakpoint (path : Path) (line : Nat) (column : Option Nat) (condition : Option String)
    (hitCount : Option Nat)
  | setCommandBreakpoint (name : String) (condition : Option String) (hitCount : Option Nat)
  | clearBreakpoints (scope : BreakpointScope)
  | breakpoints (scope : BreakpointScope)
  | callStack
  | listVariables (scope : Scope)
  | lookupVariable (scope : Scope) (name : String)
  | children (value : Reference)
  | evaluate (scope : Scope) (expression : String)
  | coerce (value : Description) (type : String)
  | assign (scope : Scope) (name : String) (value : Description)

namespace EngineCall

/-- What the operation answers with, an error included. -/
def Answer : EngineCall → Type
  | .setLineBreakpoint .. | .setCommandBreakpoint .. => Except EngineError EngineId
  | .clearBreakpoints _ => Unit
  | .breakpoints _ => List EngineBreakpoint
  | .callStack => List EngineFrame
  | .listVariables _ => Except EngineError (List EngineVariable)
  | .lookupVariable .. => Except EngineError (Option EngineVariable)
  | .children _ => Except EngineError (List EngineChild)
  | .evaluate .. | .coerce .. => Except EngineError Description
  | .assign .. => Except EngineError Unit

def perform {σ : Type} (cx : Context σ) : (call : EngineCall) → EngineM σ call.Answer
  | .setLineBreakpoint path line column condition hitCount =>
    cx.setLineBreakpoint path line column condition hitCount
  | .setCommandBreakpoint name condition hitCount => cx.setCommandBreakpoint name condition hitCount
  | .clearBreakpoints scope => cx.clearBreakpoints scope
  | .breakpoints scope => cx.breakpoints scope
  | .callStack => cx.callStack
  | .listVariables scope => cx.listVariables scope
  | .lookupVariable scope name => cx.lookupVariable scope name
  | .children value => cx.children value
  | .evaluate scope expression => cx.evaluate scope expression
  | .coerce value type => cx.coerce value type
  | .assign scope name value => cx.assign scope name value

/-- The scope whose variables the operation is about. -/
def scope? : EngineCall → Option Scope
  | .listVariables scope | .lookupVariable scope _ | .evaluate scope _ | .assign scope _ _ =>
    some scope
  | _ => none

end EngineCall

/-- The number of the frame that a scope belongs to. -/
def Scope.frame? : Scope → Option Nat
  | .locals index | .script index => some index
  | .global => none

/-- The scope is that of a frame that is not there among so many, though its number passes the
check: what the engine adds to the number goes past the machine words. -/
def Scope.Overflows (depth : Nat) : Scope → Prop
  | .locals index => (index + 1) % Text.wordBound ≤ depth ∧ depth ≤ index
  | _ => False

instance (depth : Nat) : DecidablePred (Scope.Overflows depth)
  | .locals _ => inferInstanceAs (Decidable (_ ∧ _))
  | .script _ | .global => .isFalse id

/-- Among the machine words only the largest is the number of such a frame. -/
theorem Scope.overflows_locals_iff {index : Nat} (h : index < Text.wordBound) (depth : Nat) :
    (Scope.locals index).Overflows depth ↔ index + 1 = Text.wordBound ∧ depth ≤ index := by
  refine and_congr_left fun hd => ?_
  rcases Nat.lt_or_eq_of_le (Nat.succ_le_of_lt h) with hlt | heq
  · rw [Nat.mod_eq_of_lt hlt]
    omega
  · rw [show index + 1 = Text.wordBound from heq, Nat.mod_self]
    exact iff_of_true (Nat.zero_le _) rfl

/-- The call comes to read a frame that is not there. -/
def EngineCall.Overflows (s : Script.State) : EngineCall → Prop
  | .listVariables scope | .lookupVariable scope _ => scope.Overflows s.frames.length
  | .assign scope _ value =>
    scope.Overflows s.frames.length ∧ ∃ v, value.resolve s.arena = .ok v
  | .evaluate scope expression => s.evaluate scope expression = .error .frameOverflow
  | _ => False

namespace Reported

variable {α β : Type} {x : Except ScriptError α}

theorem iff_ne : Reported x ↔ x ≠ .error .frameOverflow := by
  constructor
  · intro h he
    exact absurd (h _ he) (by decide)
  · intro h e he
    cases e with
    | frameOverflow => exact absurd he h
    | _ => rfl

theorem bind_iff {f : α → Except ScriptError β} (hf : ∀ a, Reported (f a)) :
    Reported (x >>= f) ↔ Reported x := by
  refine ⟨fun h => ?_, fun h => h.bind hf⟩
  cases x with
  | ok a => exact .ok a
  | error e => exact .error (h e rfl)

theorem map_iff {f : α → β} : Reported (x.map f) ↔ Reported x := by
  refine ⟨fun h => ?_, fun h => h.map f⟩
  cases x with
  | ok a => exact .ok a
  | error e => exact .error (h e rfl)

end Reported

namespace Script
open EngineM Text

variable {s t : State} {scope : Scope}

theorem get_reported (arena : Arena) (r : Reference) : Reported (arena.get r) := by
  unfold Arena.get
  split
  · exact .ok _
  · exact .error rfl

theorem resolve_reported (arena : Arena) (d : Description) :
    Reported (d.resolve arena) := by
  cases d <;> first | exact .ok _ | exact get_reported arena _

theorem addBreakpoint_reported (s : State) (location : Location) (condition : Option String)
    (hitCount : Option Nat) : Reported (s.addBreakpoint location condition hitCount) := by
  rcases addBreakpoint_cases s location condition hitCount with ⟨e, _, he⟩ | ⟨c, _, hb⟩
  · rw [he]
    exact .error rfl
  · exact .of_ok hb

namespace State

/-- Asked for a frame that passes the check and is not there, the engine fails without a report. -/
theorem scope_of_overflows (h : scope.Overflows s.frames.length) :
    s.scope scope = .error .frameOverflow := by
  cases scope with
  | locals index =>
    have hr : s.reaches index = .ok () := if_pos h.1
    have hf : s.frame index = .error .frameOverflow := by
      simp [State.frame, hr, List.getElem?_eq_none h.2, Bind.bind, Except.bind]
    simp [State.scope, hf, Bind.bind, Except.bind]
  | script | global => exact h.elim

theorem reaches_reported (s : State) (index : Nat) : Reported (s.reaches index) := by
  unfold reaches
  split
  · exact .ok _
  · exact .error rfl

theorem scope_reported_iff : Reported (s.scope scope) ↔ ¬ scope.Overflows s.frames.length := by
  constructor
  · intro hr h
    exact absurd (hr _ (scope_of_overflows h)) (by decide)
  · intro h
    cases scope with
    | locals index =>
      cases hf : s.frames[index]? with
      | some f => exact .of_ok (scope_eq_ok_iff.mpr ⟨(List.getElem?_eq_some_iff.mp hf).1, rfl⟩)
      | none =>
        -- Without the frame the check itself fails.
        have hd : s.frames.length ≤ index := List.getElem?_eq_none_iff.mp hf
        have hr : s.reaches index = .error (.noFrame index) := if_neg fun hc => h ⟨hc, hd⟩
        rw [State.scope, State.frame, hr]
        exact .error rfl
    | script index => exact (s.reaches_reported index).bind fun _ => .ok _
    | global => exact .ok _

/-- A frame that does not exist has a report under any number that has a successor. -/
theorem scope_of_missing {index : Nat} (hf : scope.frame? = some index)
    (hi : index + 1 < Text.wordBound) (hl : s.frames.length ≤ index) :
    s.scope scope = .error (.noFrame index) := by
  have hr : s.reaches index = .error (.noFrame index) := by
    refine if_neg fun h => ?_
    rw [Nat.mod_eq_of_lt hi] at h
    omega
  cases scope with
  | locals i =>
    cases hf
    rw [State.scope, State.frame, hr]
    rfl
  | script i =>
    cases hf
    rw [State.scope, hr]
    rfl
  | global => cases hf

end State

/-- An operation answers if and only if whatever goes wrong in it has a report. -/
theorem exists_returns_answer_iff {α : Type} {f : State → Except ScriptError (α × State)} :
    (∃ a t, Returns (answer f) s a t) ↔ Reported (f s) := by
  constructor
  · rintro ⟨a, t, hr⟩ e he
    cases hreport : e.report? with
    | some report => rfl
    | none =>
      simp only [Returns, answer, OptionT.run, OptionT.mk, he, hreport] at hr
      cases hr
  · intro h
    rcases answer_cases (f := f) (x := f s) (g := id) (by cases f s <;> rfl) h with
      ⟨b, _, hr⟩ | ⟨_, _, _, _, hr⟩
    · exact ⟨_, _, hr⟩
    · exact ⟨_, _, hr⟩

theorem evaluate_overflows {expression : String}
    (h : s.evaluate scope expression = .error .frameOverflow) :
    scope.Overflows s.frames.length := by
  by_contra hs
  exact Reported.iff_ne.mp (State.evaluate_reported (State.scope_reported_iff.mpr hs) expression) h

/-- The name of a variable is looked up among the variables of the frame first. -/
theorem evaluate_name_overflows {index : Nat} (h : (Scope.locals index).Overflows s.frames.length)
    {name : String} (hn : IsVariableName name) (hc : Expr.constant? name = none)
    (hq : ':' ∉ name.toList) : s.evaluate (.locals index) name = .error .frameOverflow := by
  have hs := State.scope_of_overflows h
  rw [State.evaluate_variableName hn hc]
  simp [State.lookup, splitQualifier_of_not_mem hq, State.lookupChain, hs, Bind.bind, Except.bind,
    Except.map]

theorem assign_reported_iff {name : String} {d : Description} :
    Reported (d.resolve s.arena >>= fun v => s.store scope name v none >>= fun t => .ok ((), t)) ↔
      ¬ (scope.Overflows s.frames.length ∧ ∃ v, d.resolve s.arena = .ok v) := by
  have store (v : Value) :
      Reported (s.store scope name v none) ↔ ¬ scope.Overflows s.frames.length := by
    rw [← State.scope_reported_iff (s := s)]
    refine ⟨fun h => ?_, fun h => State.store_reported h name v none⟩
    rw [State.scope_reported_iff]
    intro hs
    refine Reported.iff_ne.mp h ?_
    rw [State.store, State.scope_of_overflows hs]
    rfl
  have hd := resolve_reported s.arena d
  cases hv : d.resolve s.arena with
  | error e =>
    refine iff_of_true (.error (hd e hv)) ?_
    rintro ⟨-, v, hv'⟩
    cases hv'
  | ok v =>
    refine (Reported.bind_iff fun t => .ok _).trans ((store v).trans (not_congr ?_))
    exact ⟨fun h => ⟨h, v, rfl⟩, fun h => h.1⟩

theorem call_answers_iff (s : State) (call : EngineCall) :
    (∃ a t, Returns (call.perform context) s a t) ↔ ¬ call.Overflows s := by
  cases call with
  | setLineBreakpoint | setCommandBreakpoint =>
    exact iff_of_true (exists_returns_answer_iff.mpr (addBreakpoint_reported s _ _ _)) id
  | clearBreakpoints scope => exact iff_of_true ⟨_, _, rfl⟩ id
  | breakpoints scope => exact iff_of_true ⟨_, _, observe_returns _⟩ id
  | callStack => exact iff_of_true ⟨_, _, observe_returns _⟩ id
  | listVariables scope =>
    exact exists_returns_answer_iff.trans (Reported.map_iff.trans State.scope_reported_iff)
  | lookupVariable scope name =>
    refine exists_returns_answer_iff.trans ((Reported.bind_iff fun vars => ?_).trans
      State.scope_reported_iff)
    split <;> exact .ok _
  | children r =>
    refine iff_of_true (exists_returns_answer_iff.mpr ?_) id
    exact (get_reported s.arena r).bind fun v => .ok _
  | evaluate scope expression =>
    exact exists_returns_answer_iff.trans (Reported.map_iff.trans Reported.iff_ne)
  | coerce value type =>
    refine iff_of_true (exists_returns_answer_iff.mpr ?_) id
    exact (resolve_reported s.arena value).bind fun v => (v.coerce_reported _ type).bind fun _ => .ok _
  | assign scope name value => exact exists_returns_answer_iff.trans assign_reported_iff

theorem scope_overflows_of_call {call : EngineCall} (h : call.Overflows s) :
    ∃ scope, call.scope? = some scope ∧ scope.Overflows s.frames.length := by
  cases call with
  | listVariables scope | lookupVariable scope name => exact ⟨scope, rfl, h⟩
  | evaluate scope expression => exact ⟨scope, rfl, evaluate_overflows h⟩
  | assign scope name value => exact ⟨scope, rfl, h.1⟩
  | _ => exact h.elim

theorem missing_frame_returns {index : Nat} (hf : scope.frame? = some index)
    (h : index + 1 < wordBound) (hl : s.frames.length ≤ index) :
    let report : EngineError :=
      ⟨.notFound, "No stack frame at index " ++ toString index ++ "."⟩
    Returns (context.listVariables scope) s (.error report) s ∧
      ∀ name, Returns (context.lookupVariable scope name) s (.error report) s := by
  have hs := State.scope_of_missing hf h hl
  refine ⟨answer_error (e := .noFrame index) ?_ rfl, fun name =>
    answer_error (e := .noFrame index) ?_ rfl⟩
  · rw [hs]
    rfl
  · rw [hs]
    rfl

/-- Every operation answers, with a result or an error, in every state and whatever it is asked,
unless it comes to read the local variables of a frame that is not there.  Only operations on the
frame with the largest number do, which passes the check for missing frames: listing and looking up
always, assigning a value that is still kept, and evaluating what asks for a variable first in the
frame.  Any other frame that does not exist is answered with an error. -/
theorem answers_unless_overflowing (s : State) :
    (∀ call : EngineCall, ((∃ a t, Returns (call.perform context) s a t) ↔ ¬ call.Overflows s) ∧
      (call.Overflows s →
        ∃ scope, call.scope? = some scope ∧ scope.Overflows s.frames.length)) ∧
    (∀ index < wordBound, ((Scope.locals index).Overflows s.frames.length ↔
      index + 1 = wordBound ∧ s.frames.length ≤ index)) ∧
    (∀ index name, (Scope.locals index).Overflows s.frames.length → IsVariableName name →
      Expr.constant? name = none → ':' ∉ name.toList →
      (EngineCall.evaluate (.locals index) name).Overflows s) ∧
    ∀ scope index, scope.frame? = some index → index + 1 < wordBound → s.frames.length ≤ index →
      let report : EngineError :=
        ⟨.notFound, "No stack frame at index " ++ toString index ++ "."⟩
      Returns (context.listVariables scope) s (.error report) s ∧
        ∀ name, Returns (context.lookupVariable scope name) s (.error report) s := by
  refine ⟨fun call => ⟨call_answers_iff s call, scope_overflows_of_call⟩,
    fun index h => Scope.overflows_locals_iff h _, ?_, ?_⟩
  · intro index name h hn hc hq
    exact evaluate_name_overflows h hn hc hq
  · intro scope index hf h hl
    exact missing_frame_returns hf h hl

/-- An idle engine has no frames: an assignment that names one is refused, and so is a listing. -/
theorem answers_without_frames :
    let call : EngineCall := .assign (.locals 3) "$x" (.int 5)
    ¬ call.Overflows {} ∧ (∃ a t, Returns (call.perform context) {} a t) ∧
      (EngineCall.evaluate (.locals 18446744073709551615) "$x").Overflows {} ∧
      Returns (context.listVariables (.locals 3)) {}
        (.error ⟨.notFound, "No stack frame at index 3."⟩) {} := by
  intro call
  obtain ⟨hcall, -, hname, hmissing⟩ := answers_unless_overflowing {}
  have hno : ¬ (Scope.locals 3).Overflows 0 := by decide
  have hx : IsVariableName "$x" := ⟨['x'], rfl, by decide, List.all_eq_true.mp (by decide +kernel)⟩
  have hc : ¬ call.Overflows {} := fun h => hno h.1
  refine ⟨hc, (hcall call).1.mpr hc, ?_, (hmissing (.locals 3) 3 rfl (by decide) (by decide)).1⟩
  exact hname _ "$x" (by decide) hx (by cbv) (by decide)

/-- The largest number of a frame takes the thread down. -/
theorem last_frame_unanswered :
    ¬ ∃ a t, Returns ((EngineCall.listVariables (.locals 18446744073709551615)).perform context)
      {} a t := by
  rintro ⟨a, t, hr⟩
  cases hr

end Script
end Stepwise
