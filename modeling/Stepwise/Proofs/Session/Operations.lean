import Stepwise.Session.System
import Stepwise.Proofs.Session.Serving

namespace Stepwise

namespace Session

/-- Every event that was ever published, the oldest first. -/
def published (s : Session) : List SessionEvent :=
  s.feed.events.log

/-- Every stop that was ever queued, the oldest first. -/
def queuedStops (s : Session) : List StoppedEvent :=
  s.stops.stops.log

variable {s t : Session}

@[simp] theorem runState_leaveStop (s : Session) (next : RunState) :
    (s.leaveStop next).runState = next := rfl

@[simp] theorem executing_leaveStop (s : Session) (next : RunState) :
    (s.leaveStop next).executing = s.executing := rfl

@[simp] theorem published_leaveStop (s : Session) (next : RunState) :
    (s.leaveStop next).published = s.published ++ [.running] := rfl

@[simp] theorem runState_terminate (s : Session) : s.terminate.runState = .terminated := by
  unfold terminate
  split
  · next h => exact h
  · rfl

@[simp] theorem executing_terminate (s : Session) : s.terminate.executing = s.executing := by
  unfold terminate
  split <;> rfl

@[simp] theorem queuedStops_terminate (s : Session) :
    s.terminate.queuedStops = s.queuedStops := by
  unfold terminate
  split <;> rfl

@[simp] theorem receivers_terminate (s : Session) :
    s.terminate.stops.receivers = s.stops.receivers := by
  unfold terminate
  split <;> rfl

theorem terminate_of_terminated (h : s.runState = .terminated) : s.terminate = s := by
  rw [terminate, if_pos h]

theorem published_terminate (h : s.runState ≠ .terminated) :
    s.terminate.published = s.published ++ [.terminated] := by
  rw [terminate, if_neg h]
  rfl

@[simp] theorem runState_exit (s : Session) (crashed : Bool) :
    (s.exit crashed).runState = .terminated :=
  runState_terminate _

/-- The session after the end of a script has been told and before anything follows from it. -/
def concluded (s : Session) (outcome : Outcome) : Session :=
  { s with executing := false, frames := [] }.publish (.executionCompleted outcome)

@[simp] theorem published_concluded (s : Session) (outcome : Outcome) :
    (s.concluded outcome).published = s.published ++ [.executionCompleted outcome] := rfl

/-- The session ends, or goes on with nothing to run. -/
theorem complete_cases (s : Session) (outcome : Outcome) :
    s.complete outcome = (s.concluded outcome).terminate ∨
      (s.runState ≠ .terminated ∧
        s.complete outcome = { s.concluded outcome with runState := .running }) := by
  unfold complete
  dsimp only
  split
  · next h => exact .inl (terminate_of_terminated h).symm
  · exact .inl rfl
  · exact .inl rfl
  · exact .inr ⟨by assumption, rfl⟩

theorem complete_of_terminated (h : s.runState = .terminated) (outcome : Outcome) :
    s.complete outcome = s.concluded outcome := by
  rcases complete_cases s outcome with hc | ⟨hn, _⟩
  · rw [hc]
    exact terminate_of_terminated h
  · exact absurd h hn

@[simp] theorem published_hold (s : Session) (h : Halt) (stack : List EngineFrame) :
    (s.hold h stack).published = s.published ++ [.stopped (s.stoppedEvent h)] := rfl

theorem stops_hold (s : Session) (h : Halt) (stack : List EngineFrame) :
    (s.hold h stack).stops = (s.stops.push (s.stoppedEvent h)).2 := rfl

theorem SameHalt.runState (h : s.SameHalt t) : t.runState = s.runState := by
  rw [h]

theorem SameHalt.published (h : s.SameHalt t) : t.published = s.published := by
  rw [h]
  rfl

theorem SameHalt.stops (h : s.SameHalt t) : t.stops = s.stops := by
  rw [h]

theorem SameHalt.executing (h : s.SameHalt t) : t.executing = s.executing := by
  rw [h]

end Session
end Stepwise
