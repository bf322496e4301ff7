import Mathlib
import Stepwise.Proofs.Session.Attended
import Stepwise.Proofs.Session.Lifecycle
import Stepwise.Script.Engine
import Stepwise.Script.Samples

namespace Stepwise

variable {ρ : Type} {E : Engine}

/-- What has been published tells the state of the session. -/
structure Session.Chronicle (s : Session) : Prop where
  going : s.runState = .running ∨ s.runState = .aborting → Unfolding false s.published
  held : s.runState = .stopped → Unfolding true s.published
  ended : s.runState = .terminated → ∃ halted log after, Unfolding halted log ∧
    s.published = log ++ after ∧ (after = [.terminated] ∨
      (s.executing = false ∧ ∃ outcome, after = [.terminated, .executionCompleted outcome]))

namespace Session.Chronicle

variable {s t : Session}

theorem unfolding (h : s.Chronicle) (hs : s.runState ≠ .terminated) :
    ∃ halted, Unfolding halted s.published := by
  cases hr : s.runState with
  | running => exact ⟨false, h.going (.inl hr)⟩
  | aborting => exact ⟨false, h.going (.inr hr)⟩
  | stopped => exact ⟨true, h.held hr⟩
  | terminated => exact absurd hr hs

theorem lifecycle (h : s.Chronicle) : Lifecycle s.published := by
  by_cases hs : s.runState = .terminated
  · obtain ⟨halted, log, after, hu, hp, ha⟩ := h.ended hs
    rw [hp]
    exact hu.lifecycle (.inr (ha.imp_right (·.2)))
  · obtain ⟨halted, hu⟩ := h.unfolding hs
    simpa using hu.lifecycle (.inl rfl)

theorem same (h : s.Chronicle) (hr : t.runState = s.runState) (hp : t.published = s.published)
    (hx : t.executing = s.executing) : t.Chronicle := by
  obtain ⟨hg, hh, he⟩ := h
  rw [← hr, ← hp] at hg hh
  rw [← hr, ← hp, ← hx] at he
  exact ⟨hg, hh, he⟩

theorem opened (around : Surroundings) : Chronicle { around } :=
  ⟨fun _ => .nil, nofun, nofun⟩

/-- Away from halts nothing is told of how busy the session is or whether it is about to end. -/
theorem change (h : s.Chronicle) (hs : s.runState = .running ∨ s.runState = .aborting)
    (hr : t.runState = .running ∨ t.runState = .aborting) (hp : t.published = s.published) :
    t.Chronicle := by
  have hu : Unfolding false t.published := hp ▸ h.going hs
  refine ⟨fun _ => hu, ?_, ?_⟩
  · intro ht
    rcases hr with hr | hr <;> rw [ht] at hr <;> cases hr
  · intro ht
    rcases hr with hr | hr <;> rw [ht] at hr <;> cases hr

theorem leaveStop (h : s.Chronicle) (hs : s.runState = .stopped) {next : RunState}
    (hn : next = .running ∨ next = .aborting) : (s.leaveStop next).Chronicle := by
  refine ⟨fun _ => .running (h.held hs), ?_, ?_⟩
  · intro ht
    rcases hn with rfl | rfl <;> cases ht
  · intro ht
    rcases hn with rfl | rfl <;> cases ht

theorem hold (h : s.Chronicle) (hs : s.runState = .running) (halt : Halt)
    (stack : List EngineFrame) : (s.hold halt stack).Chronicle := by
  refine ⟨?_, fun _ => .stopped _ (h.going (.inl hs)), nofun⟩
  rintro (hr | hr) <;> cases hr

theorem terminate (h : s.Chronicle) : s.terminate.Chronicle := by
  by_cases hs : s.runState = .terminated
  · rw [terminate_of_terminated hs]
    exact h
  · obtain ⟨halted, hu⟩ := h.unfolding hs
    refine ⟨?_, ?_, fun _ => ⟨halted, _, _, hu, published_terminate hs, .inl rfl⟩⟩
    · rw [runState_terminate]
      rintro (hr | hr) <;> cases hr
    · rw [runState_terminate]
      intro hr
      cases hr

theorem idle (h : s.Chronicle) : Chronicle { s with executing := false } := by
  refine ⟨h.going, h.held, ?_⟩
  intro hs
  obtain ⟨halted, log, after, hu, hp, ha⟩ := h.ended hs
  exact ⟨halted, log, after, hu, hp, ha.imp_right fun ha => ⟨rfl, ha.2⟩⟩

theorem exit (h : s.Chronicle) (crashed : Bool) : (s.exit crashed).Chronicle := by
  cases crashed with
  | false => exact h.terminate
  | true => exact h.idle.terminate

/-- After the end of the session only the script that was still executing can complete. -/
theorem concluded_of_terminated (h : s.Chronicle) (hs : s.runState = .terminated)
    (hx : s.executing = true) (outcome : Outcome) : (s.concluded outcome).Chronicle := by
  obtain ⟨halted, log, after, hu, hp, ha⟩ := h.ended hs
  have ha : after = [.terminated] := by
    rcases ha with ha | ⟨hf, _⟩
    · exact ha
    · rw [hx] at hf
      cases hf
  refine ⟨?_, ?_, fun _ => ⟨halted, log, _, hu, ?_, .inr ⟨rfl, outcome, rfl⟩⟩⟩
  · rintro (hr | hr) <;> cases hs.symm.trans hr
  · intro hr
    cases hs.symm.trans hr
  · simp [hp, ha]

theorem complete (h : s.Chronicle) (hs : s.runState ≠ .stopped) (hx : s.executing = true)
    (outcome : Outcome) : (s.complete outcome).Chronicle := by
  by_cases ht : s.runState = .terminated
  · rw [complete_of_terminated ht]
    exact h.concluded_of_terminated ht hx outcome
  · have hg : s.runState = .running ∨ s.runState = .aborting := by
      cases hr : s.runState <;> simp_all
    have hu : Unfolding false (s.concluded outcome).published := .completed outcome (h.going hg)
    rcases complete_cases s outcome with hc | ⟨_, hc⟩
    · rw [hc]
      have hd : (s.concluded outcome).Chronicle :=
        ⟨fun _ => hu, fun hr => absurd hr hs, fun hr => absurd hr ht⟩
      exact hd.terminate
    · rw [hc]
      exact ⟨fun _ => hu, nofun, nofun⟩

end Session.Chronicle

/-- The stops that were queued are those that were published. -/
structure Session.StopsTold (s : Session) : Prop where
  kept : s.stops.IsKept
  told : s.queuedStops = s.published.filterMap SessionEvent.stop?

namespace Session.StopsTold

variable {s t : Session}

theorem same (h : s.StopsTold) (hr : t.stops.receivers = s.stops.receivers)
    (hq : t.queuedStops = s.queuedStops)
    (hp : t.published.filterMap SessionEvent.stop? = s.published.filterMap SessionEvent.stop?) :
    t.StopsTold :=
  ⟨(congrArg (·[0]?) hr).trans h.kept, by rw [hq, hp, h.told]⟩

theorem terminate (h : s.StopsTold) : s.terminate.StopsTold := by
  by_cases hs : s.runState = .terminated
  · rw [terminate_of_terminated hs]
    exact h
  · exact h.same (by simp) (by simp) (by simp [published_terminate hs, SessionEvent.stop?])

theorem concluded (h : s.StopsTold) (outcome : Outcome) : (s.concluded outcome).StopsTold :=
  h.same rfl rfl (by simp [SessionEvent.stop?])

theorem complete (h : s.StopsTold) (outcome : Outcome) : (s.complete outcome).StopsTold := by
  rcases complete_cases s outcome with hc | ⟨_, hc⟩
  · rw [hc]
    exact (h.concluded outcome).terminate
  · rw [hc]
    exact (h.concluded outcome).same rfl rfl rfl

theorem exit (h : s.StopsTold) (crashed : Bool) : (s.exit crashed).StopsTold := by
  cases crashed with
  | false => exact h.terminate
  | true =>
    have hi : StopsTold { s with executing := false } := h.same rfl rfl rfl
    exact hi.terminate

/-- The stop goes into the queue because the session holds a receiving end itself. -/
theorem hold (h : s.StopsTold) (halt : Halt) (stack : List EngineFrame) :
    (s.hold halt stack).StopsTold := by
  have hp := h.kept.push (s.stoppedEvent halt)
  rw [← stops_hold s halt stack] at hp
  refine ⟨?_, ?_⟩
  · rw [hp]
    exact h.kept
  · rw [queuedStops, hp, published_hold, List.filterMap_append, ← h.told]
    rfl

end Session.StopsTold

namespace Session

/-- The outcomes of the executions that have completed. -/
def outcomes (s : Session) : List Outcome :=
  s.published.filterMap SessionEvent.outcome?

theorem outcomes_terminate (s : Session) : s.terminate.outcomes = s.outcomes := by
  unfold outcomes
  by_cases hs : s.runState = .terminated
  · rw [terminate_of_terminated hs]
  · simp [published_terminate hs, SessionEvent.outcome?]

theorem outcomes_complete (s : Session) (outcome : Outcome) :
    (s.complete outcome).outcomes = s.outcomes ++ [outcome] := by
  have hd : (s.concluded outcome).outcomes = s.outcomes ++ [outcome] := by
    simp [outcomes, SessionEvent.outcome?]
  rcases complete_cases s outcome with hc | ⟨_, hc⟩
  · rw [hc, outcomes_terminate, hd]
  · rw [hc]
    exact hd

theorem outcomes_exit (s : Session) (crashed : Bool) : (s.exit crashed).outcomes = s.outcomes := by
  cases crashed with
  | false => exact s.outcomes_terminate
  | true => exact outcomes_terminate _

end Session

def Execution.outcome? : Execution → Option Outcome
  | .ended outcome => some outcome
  | _ => none

namespace Shared

variable {s t : Shared ρ}

/-- The executions that have ended are told of in the order in which they were accepted. -/
def OutcomesTold (s : Shared ρ) : Prop :=
  s.session.outcomes = s.executions.filterMap Execution.outcome?

/-- The execution in flight has no outcome that could be lost. -/
theorem outcomes_lose (h : s.OneInFlight) :
    (lose s.executions s.inFlight).filterMap Execution.outcome? =
      s.executions.filterMap Execution.outcome? := by
  rcases h with h | ⟨_, done, he, h⟩
  · rw [h]
    rfl
  · rw [h, he]
    simp [lose]
    rfl

/-- The execution that the thread is busy with is the last one, so its outcome comes last. -/
theorem outcomes_set (h : s.OneInFlight) {execution : Nat}
    (hw : s.worker.execution? = some execution) (outcome : Outcome) :
    (s.executions.set execution (.ended outcome)).filterMap Execution.outcome? =
      s.executions.filterMap Execution.outcome? ++ [outcome] := by
  obtain ⟨_, _, done, he, rfl⟩ := h.alone hw
  rw [he]
  simp [Execution.outcome?]

end Shared

namespace Move

open Shared

variable {s t : Shared ρ}

theorem chronicle (m : Move s t) (hc : s.Closed) (ho : s.OneInFlight) (ha : s.Attended)
    (h : s.session.Chronicle) : t.session.Chronicle := by
  cases m with
  | receive _ received =>
    exact h.same (Session.runState_receive received) (Session.published_receive received)
      (Session.executing_receive received)
  | leaveStop _ _ stopped onward =>
    rw [session_send]
    exact h.leaveStop stopped onward
  | execute _ live free alive =>
    have hs := ha.not_stopped_of_free hc ho alive free
    refine h.change ?_ (.inl rfl) rfl
    cases hr : s.session.runState <;> simp_all
  | askAbort running => exact h.change (.inl running) (.inr rfl) rfl
  | leave =>
    split
    · rw [terminate_send, session_send]
      exact h.terminate
    · exact h.terminate
  | serve _ _ _ _ same => exact h.same same.runState same.published same.executing
  | halt halt _ _ stack halting accepted =>
    have hs : s.session.runState ≠ .stopped :=
      ha.not_stopped (by simp [halting, Worker.isHalted]) (by simp [halting, Worker.isEnding])
    exact h.hold (accepted.resolve_right hs) halt stack
  | complete outcome execution completing | completeLast outcome execution completing =>
    have hs : s.session.runState ≠ .stopped :=
      ha.not_stopped (by simp [completing, Worker.isHalted]) (by simp [completing, Worker.isEnding])
    have hx : s.session.executing = true :=
      (ho.alone (show s.worker.execution? = some execution by rw [completing]; rfl)).1
    exact h.complete hs hx outcome
  | exit crashed _ => exact h.exit crashed
  | _ => exact h

theorem stopsTold (m : Move s t) (h : s.session.StopsTold) : t.session.StopsTold := by
  cases m with
  | receive _ received =>
    obtain ⟨hq, hk⟩ := Session.stops_receive received h.kept
    exact ⟨hk, by rw [hq, Session.published_receive received, h.told]⟩
  | leaveStop =>
    rw [session_send]
    exact h.same rfl rfl (by simp [SessionEvent.stop?])
  | execute | askAbort => exact h.same rfl rfl rfl
  | leave =>
    split
    · rw [terminate_send, session_send]
      exact h.terminate
    · exact h.terminate
  | serve _ _ _ _ same =>
    have hs := same.stops
    exact h.same (by rw [hs]) (by simp [Session.queuedStops, hs]) (by rw [same.published])
  | halt halt _ _ stack => exact h.hold halt stack
  | complete outcome | completeLast outcome => exact h.complete outcome
  | exit crashed _ => exact h.exit crashed
  | _ => exact h

/-- Only a thread that comes with a halt tells of a stop, unless the session is about to end. -/
theorem queuedStops (m : Move s t) (hk : s.session.stops.IsKept) :
    t.session.queuedStops = s.session.queuedStops ∨
      ∃ halt run execution, s.worker = .halting halt run execution ∧
        (s.session.runState = .running ∨ s.session.runState = .stopped) ∧
        t.worker = .taking (.halted run execution) ∧
        t.session.queuedStops = s.session.queuedStops ++ [s.session.stoppedEvent halt] := by
  cases m with
  | receive _ received => exact .inl (Session.stops_receive received hk).1
  | leaveStop =>
    rw [session_send]
    exact .inl rfl
  | leave =>
    left
    split
    · rw [terminate_send, session_send]
      exact Session.queuedStops_terminate _
    · exact Session.queuedStops_terminate _
  | serve _ _ _ _ same => exact .inl (congrArg (fun q : StopQueue => q.stops.log) same.stops)
  | halt halt run execution stack halting accepted =>
    exact .inr ⟨halt, run, execution, halting, accepted, rfl,
      Session.queuedStops_hold hk halt stack⟩
  | complete outcome | completeLast outcome =>
    left
    rcases Session.complete_cases s.session outcome with hc | ⟨_, hc⟩
    · exact (congrArg Session.queuedStops hc).trans (Session.queuedStops_terminate _)
    · exact (congrArg Session.queuedStops hc).trans rfl
  | exit crashed _ =>
    left
    cases crashed <;> exact Session.queuedStops_terminate _
  | _ => exact .inl rfl

theorem outcomesTold (m : Move s t) (ho : s.OneInFlight) (h : s.OutcomesTold) :
    t.OutcomesTold := by
  have hl : s.session.outcomes =
      (lose s.executions s.inFlight).filterMap Execution.outcome? := by
    rw [outcomes_lose ho]
    exact h
  cases m with
  | receive _ received =>
    have hp := Session.published_receive received
    exact (congrArg (List.filterMap SessionEvent.outcome?) hp).trans h
  | leaveStop =>
    rw [OutcomesTold, session_send, executions_send, Session.outcomes, Session.published_leaveStop,
      List.filterMap_append]
    exact (List.append_nil _).trans h
  | execute =>
    rw [OutcomesTold, List.filterMap_append]
    exact h.trans (List.append_nil _).symm
  | leave =>
    split
    · rw [terminate_send, OutcomesTold, session_send, executions_send]
      exact (Session.outcomes_terminate _).trans h
    · exact (Session.outcomes_terminate _).trans h
  | serve _ _ _ _ same =>
    exact (congrArg (List.filterMap SessionEvent.outcome?) same.published).trans h
  | crash =>
    rw [inFlight, lose, List.foldl_append] at hl
    exact hl
  | stop rest idle queued =>
    rw [inFlight, idle, queued] at hl
    exact hl
  | refuse post busy _ execution _ taking run queued =>
    obtain ⟨_, hn, _⟩ := ho.alone (show s.worker.execution? = some busy by rw [taking]; exact run)
    simp [queued, Command.execution?] at hn
  | halt halt _ _ stack =>
    rw [OutcomesTold, Session.outcomes, Session.published_hold, List.filterMap_append]
    exact (List.append_nil _).trans h
  | complete outcome execution completing =>
    have hw : s.worker.execution? = some execution := by rw [completing]; rfl
    rw [OutcomesTold, Session.outcomes_complete, outcomes_set ho hw outcome, ← h]
  | completeLast outcome execution completing =>
    have hw : s.worker.execution? = some execution := by rw [completing]; rfl
    have hc := (ho.alone hw).2.1
    simp only [OutcomesTold, close, hc]
    exact (Session.outcomes_complete _ _).trans (h ▸ (outcomes_set ho hw outcome).symm)
  | exit crashed _ => exact (Session.outcomes_exit _ crashed).trans h
  | _ => exact h

end Move

namespace System

variable {s : System E} {around : Surroundings} {engine : E.State} {interrupts : Interrupts}

theorem chronicle_reaches (h : Reaches (opened around engine interrupts) s) :
    s.session.Chronicle :=
  shared_reaches (P := fun s => s.session.Chronicle) h (.opened around) fun hr m =>
    m.chronicle (closed_reaches hr) (oneInFlight_reaches hr) (attended_reaches hr)

theorem stopsTold_reaches (h : Reaches (opened around engine interrupts) s) :
    s.session.StopsTold :=
  shared_reaches (P := fun s => s.session.StopsTold) h ⟨rfl, rfl⟩ fun _ m => m.stopsTold

theorem outcomesTold_reaches (h : Reaches (opened around engine interrupts) s) :
    s.shared.OutcomesTold :=
  shared_reaches h rfl fun hr m => m.outcomesTold (oneInFlight_reaches hr)

/-- Whatever clients and the engine do, and in whatever order: the events that were published are
the life of a session, every accepted execution completes at most once, in order, and the stops that
were queued are those of the events. -/
theorem published_lifecycle (h : Reaches (opened around engine interrupts) s) :
    Lifecycle s.session.published ∧
      s.session.published.filterMap SessionEvent.outcome? =
        s.executions.filterMap Execution.outcome? ∧
      s.session.queuedStops = s.session.published.filterMap SessionEvent.stop? :=
  ⟨(chronicle_reaches h).lifecycle, outcomesTold_reaches h, (stopsTold_reaches h).told⟩

/-- A script is broken into and aborted there. -/
theorem published_lifecycle_of_abort :
    ∃ s : System (scriptEngine { inlines := [("count", .counting 1)] }),
      Reaches (opened { home := .at ⟨"/"⟩ } (Script.State.initial [] []) { breakRequested := true }) s ∧
      s.session.published.length = 4 ∧ Lifecycle s.session.published ∧
      s.session.published.filterMap SessionEvent.outcome? =
        s.executions.filterMap Execution.outcome? ∧
      s.session.queuedStops = s.session.published.filterMap SessionEvent.stop? := by
  have hf : ((opened { home := .at ⟨"/"⟩ } (Script.State.initial [] []) { breakRequested := true } :
      System (scriptEngine { inlines := [("count", .counting 1)] })).follow
      [.begin (.execute (.inline "count")) false, .advance 0, .work, .work, .work, .work, .work,
        .begin .abort false, .advance 1, .work, .work, .work]).any
      (fun s => s.session.published.length == 4) = true := by cbv
  obtain ⟨s, hr, hp⟩ := exists_reaches hf
  exact ⟨s, hr, beq_iff_eq.mp hp, published_lifecycle hr⟩

end System
end Stepwise
