import Mathlib.Logic.Relation
import Stepwise.Proofs.Script.Concluding
import Stepwise.Session.System

namespace Stepwise.System

variable {E : Engine} {s t : System E}

/-- The edits that the operations of clients are made of. -/
inductive Edit : System E → System E → Prop
  | calls (s : System E) (calls : List Call) : Edit s { s with calls }
  | join (s : System E) : Edit s { s with joined := true }
  | interrupt (s : System E) {interrupts : Interrupts} (raised : s.interrupts.Raised interrupts) :
    Edit s { s with interrupts }
  | send (s : System E) (c : Command) : Edit s ((s.send c).getD s)
  | leaveStop (s : System E) (next : RunState) :
    Edit s { s with session := s.session.leaveStop next }
  | occupy (s : System E) :
    Edit s { s with
      session := { s.session with executing := true, runState := .running }
      executions := s.executions ++ [.pending] }
  | askAbort (s : System E) : Edit s { s with session := { s.session with runState := .aborting } }
  | terminate (s : System E) : Edit s { s with session := s.session.terminate }

/-- Any number of edits. -/
abbrev Edits : System E → System E → Prop :=
  Relation.ReflTransGen Edit

theorem edits_setPhase (h : Edits s t) (call : Nat) (phase : Phase) :
    Edits s (t.setPhase call phase) :=
  h.tail (.calls t _)

theorem edits_sent (h : Edits s t) (c : Command) (sent lost : Result) :
    Edits s (match t.send c with
      | some t => (sent, t)
      | none => (lost, t)).2 := by
  have hs : Edits s ((t.send c).getD t) := h.tail (.send t c)
  cases hq : t.send c <;> simpa [hq] using hs

theorem edits_resume (s : System E) (control : Control) (action : Resume) :
    Edits s (s.resume control action).2 := by
  unfold resume
  split
  · exact .refl
  · split
    · exact edits_sent (.single (.leaveStop s .running)) _ _ _
    · exact .refl

theorem edits_execute (s : System E) (source : Source) : Edits s (s.execute source).2 := by
  unfold execute
  split
  · exact .refl
  · split
    · exact .refl
    · have hs : Edit s _ := .send s (.execute source s.executions.length)
      by_cases ha : s.alive = true
      · simp only [send, if_pos ha, Option.getD_some] at hs ⊢
        exact .tail (.single hs) (.occupy _)
      · simp only [send, if_neg ha]
        exact .refl

theorem edits_requestBreak (s : System E) : Edits s s.requestBreak.2 := by
  unfold requestBreak
  split
  · exact .refl
  · split
    · exact .single (.interrupt s ⟨fun _ => rfl, id⟩)
    · exact .refl

theorem edits_requestAbort (s : System E) : Edits s s.requestAbort.2 := by
  unfold requestAbort
  split
  · exact .refl
  · split
    · exact edits_sent (.single (.leaveStop s .aborting)) _ _ _
    · split
      · exact .tail (.single (.askAbort s)) (.interrupt _ ⟨id, fun _ => rfl⟩)
      · exact .refl

theorem edits_leave (s : System E) : Edits s s.leave := by
  have htold : Edits s
      (if s.session.runState = .stopped then (s.send (.resume .abort)).getD s
      else if s.session.executing then
        { s with interrupts := { s.interrupts with abortRequested := true } }
      else s) := by
    split
    · exact .single (.send s _)
    · split
      · exact .single (.interrupt s ⟨id, fun _ => rfl⟩)
      · exact .refl
  exact htold.tail (.terminate _)

theorem edits_atOnce (s : System E) (operation : Operation) :
    Edits s (s.atOnce operation).2 := by
  cases operation with
  | execute source => exact edits_execute s source
  | «continue» => exact edits_resume s .continue .continue
  | stepOver => exact edits_resume s .stepOver .stepOver
  | stepIn => exact edits_resume s .stepIn .stepIn
  | stepOut => exact edits_resume s .stepOut .stepOut
  | «break» => exact edits_requestBreak s
  | abort => exact edits_requestAbort s
  | _ => exact .refl

theorem edits_enter (s : System E) (call : Nat) (operation : Operation) :
    Edits s (s.enter call operation) := by
  unfold enter
  split
  · split
    · exact edits_setPhase .refl _ _
    · exact edits_setPhase (edits_leave s) _ _
  · split
    · exact edits_setPhase .refl _ _
    · split
      · split
        · exact edits_setPhase .refl _ _
        · exact edits_setPhase .refl _ _
        · exact edits_setPhase .refl _ _
      · exact edits_setPhase (edits_leave s) _ _
      · exact edits_setPhase (edits_atOnce s _) _ _

theorem edits_recheck (s : System E) (call : Nat) : Edits s (s.recheck call) := by
  unfold recheck
  split
  · exact edits_setPhase .refl _ _
  · split
    · exact edits_setPhase .refl _ _
    · exact edits_setPhase .refl _ _

theorem edits_advance {call : Nat} (h : s.advance call = some t) : Edits s t := by
  unfold advance at h
  split at h
  · cases h
  · split at h
    · cases h
      exact edits_enter s call _
    · cases h
      exact edits_recheck s call
    · split at h
      · next r _ =>
        have hs : Edit s ((s.send (.serve call r)).getD s) := .send s _
        cases hq : s.send (.serve call r) with
        | none =>
          rw [hq] at h
          cases h
          exact edits_setPhase .refl _ _
        | some u =>
          rw [hq] at h hs
          cases h
          exact edits_setPhase (.single hs) _ _
      · cases h
    · cases h
    · cases h
      exact edits_setPhase .refl _ _
    · cases h
      exact edits_setPhase .refl _ _
    · split at h
      · cases h
        exact edits_setPhase .refl _ _
      · cases h
        exact edits_setPhase (.tail (.single (.join s)) (.send _ .shutdown)) _ _
    · split at h
      · cases h
        exact edits_setPhase .refl _ _
      · cases h
    · cases h

theorem edits_giveUp {call : Nat} (h : s.giveUp call = some t) : Edits s t := by
  unfold giveUp at h
  split at h
  · cases h
  · split at h
    · split at h
      · cases h
        exact edits_setPhase .refl _ _
      · cases h
        exact edits_setPhase (.single (.calls s _)) _ _
    · cases h

/-- Only receivers and the engine's thread do anything else. -/
theorem edits_step {a : Action} (ha : a ≠ .work) (hr : ∀ reception, a ≠ .receive reception)
    (h : s.step a = some t) : Edits s t := by
  cases a with
  | begin operation cancelled =>
    cases h
    exact .single (.calls s _)
  | cancel call =>
    cases h
    exact .single (.calls s _)
  | advance call => exact edits_advance h
  | giveUp call => exact edits_giveUp h
  | receive reception => exact absurd rfl (hr reception)
  | work => exact absurd rfl ha

end Stepwise.System
