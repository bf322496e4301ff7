import Stepwise.Proofs.Session.Attended

namespace Stepwise

variable {E : Engine}

namespace Session

/-- The session is where it was or not in a halt, and its handles are as they were or all gone. -/
structure Passes (s t : Session) : Prop where
  handles : t.handles = s.handles ∨ t.handles = s.handles.reset
  halt : t.runState = .stopped → s.runState = .stopped ∧ t.around = s.around ∧
    t.frames = s.frames ∧ t.handles = s.handles

namespace Passes

variable {s t : Session}

theorem refl (s : Session) : s.Passes s :=
  ⟨.inl rfl, fun h => ⟨h, rfl, rfl, rfl⟩⟩

/-- The session is not in a halt any more. -/
theorem away (hn : t.runState ≠ .stopped)
    (hh : t.handles = s.handles ∨ t.handles = s.handles.reset) : s.Passes t :=
  ⟨hh, fun h => absurd h hn⟩

theorem terminate (s : Session) : s.Passes s.terminate := by
  refine .away (by simp) ?_
  unfold Session.terminate
  split
  · exact .inl rfl
  · exact .inr rfl

theorem complete (s : Session) (outcome : Outcome) : s.Passes (s.complete outcome) := by
  refine .away (s.runState_complete_ne_stopped outcome) ?_
  rcases complete_cases s outcome with h | ⟨_, h⟩
  · rw [h]
    exact (terminate (s.concluded outcome)).handles
  · rw [h]
    exact .inl rfl

theorem exit (s : Session) (crashed : Bool) : s.Passes (s.exit crashed) := by
  refine .away (by simp) ?_
  unfold Session.exit
  cases crashed
  · exact (terminate s).handles
  · exact (terminate { s with executing := false }).handles

theorem receive {reception : Reception} (h : s.receive reception = some t) : s.Passes t := by
  rw [receive_cases h]
  exact ⟨.inl rfl, fun hs => ⟨hs, rfl, rfl, rfl⟩⟩

end Passes
end Session

/-- Only serving a request and entering a halt do more to what clients can list. -/
theorem Move.passes {s t : Shared E.Run} (m : Move s t)
    (hs : ∀ post call r, s.worker = .serving post call r → t.worker = s.worker)
    (hh : ∀ h k execution, s.worker = .halting h k execution → t.worker = s.worker) :
    s.session.Passes t.session := by
  cases m with
  | receive _ received => exact .receive received
  | leaveStop next action stopped onward =>
    rw [Shared.session_send]
    refine .away ?_ (.inl rfl)
    rcases onward with rfl | rfl <;> simp
  | execute | askAbort => exact .away (by simp) (.inl rfl)
  | leave =>
    simp only [Shared.terminate]
    split
    · rw [Shared.session_send]
      exact .terminate _
    · exact .terminate _
  | serve _ _ _ serving =>
    have hw := hs _ _ _ serving
    rw [serving] at hw
    cases hw
  | halt _ _ _ _ halting =>
    have hw := hh _ _ _ halting
    rw [halting] at hw
    cases hw
  | complete outcome => exact .complete _ outcome
  | completeLast outcome => exact .complete _ outcome
  | exit crashed => exact .exit _ crashed
  | _ => exact .refl _

namespace System

variable {s t : System E}

/-- What clients do not touch. -/
def thread (s : System E) : E.State × Worker E.Run :=
  (s.engine, s.worker)

theorem thread_send (s : System E) (c : Command) : ((s.send c).getD s).thread = s.thread := by
  unfold send
  split <;> rfl

theorem thread_sent {s : System E} {c : Command} (sent lost : Result) {before : System E}
    (h : s.thread = before.thread) :
    (match s.send c with
      | some s => (sent, s)
      | none => (lost, s)).2.thread = before.thread := by
  rw [← h, ← thread_send s c]
  cases s.send c <;> rfl

theorem thread_resume (s : System E) (control : Control) (action : Resume) :
    (s.resume control action).2.thread = s.thread := by
  unfold resume
  split
  · rfl
  · split
    · exact thread_sent _ _ rfl
    · rfl

theorem thread_execute (s : System E) (source : Source) :
    (s.execute source).2.thread = s.thread := by
  unfold execute
  split
  · rfl
  · split
    · rfl
    · by_cases ha : s.alive = true
      · simp only [send, if_pos ha]
        rfl
      · simp only [send, if_neg ha]

theorem thread_requestAbort (s : System E) : s.requestAbort.2.thread = s.thread := by
  unfold requestAbort
  split
  · rfl
  · split
    · exact thread_sent _ _ rfl
    · split <;> rfl

theorem thread_requestBreak (s : System E) : s.requestBreak.2.thread = s.thread := by
  unfold requestBreak
  split
  · rfl
  · split <;> rfl

theorem thread_leave (s : System E) : s.leave.thread = s.thread := by
  have hs := thread_send s (.resume .abort)
  unfold leave
  split
  · exact hs
  · split <;> rfl

theorem thread_atOnce (s : System E) (operation : Operation) :
    (s.atOnce operation).2.thread = s.thread := by
  cases operation with
  | execute source => exact thread_execute s source
  | «continue» => exact thread_resume s .continue .continue
  | stepOver => exact thread_resume s .stepOver .stepOver
  | stepIn => exact thread_resume s .stepIn .stepIn
  | stepOut => exact thread_resume s .stepOut .stepOut
  | «break» => exact thread_requestBreak s
  | abort => exact thread_requestAbort s
  | _ => rfl

theorem thread_enter (s : System E) (call : Nat) (operation : Operation) :
    (s.enter call operation).thread = s.thread := by
  unfold enter
  split
  · split
    · rfl
    · exact thread_leave s
  · split
    · rfl
    · split
      · split <;> rfl
      · exact thread_leave s
      · exact thread_atOnce s _

theorem thread_advance {call : Nat} (h : s.advance call = some t) : t.thread = s.thread := by
  unfold advance at h
  split at h
  · cases h
  · split at h
    · cases h
      exact thread_enter s call _
    · cases h
      unfold recheck
      split
      · rfl
      · split <;> rfl
    · split at h
      · next r _ =>
        have hs := thread_send s (.serve call r)
        cases hq : s.send (.serve call r) with
        | none =>
          rw [hq] at h
          cases h
          rfl
        | some u =>
          rw [hq] at h hs
          cases h
          exact hs
      · cases h
    · cases h
    · cases h
      rfl
    · cases h
      rfl
    · split at h
      · cases h
        rfl
      · cases h
        exact thread_send { s with joined := true } .shutdown
    · split at h
      · cases h
        rfl
      · cases h
    · cases h

theorem thread_step {a : Action} (ha : a ≠ .work) (h : s.step a = some t) :
    t.thread = s.thread := by
  cases a with
  | begin operation cancelled =>
    cases h
    rfl
  | cancel call =>
    cases h
    rfl
  | advance call => exact thread_advance h
  | giveUp call =>
    simp only [step, giveUp] at h
    split at h
    · cases h
    · split at h
      · split at h <;> cases h <;> rfl
      · cases h
  | receive reception =>
    obtain ⟨session, _, rfl⟩ := Option.map_eq_some_iff.mp h
    rfl
  | work => exact absurd rfl ha

end System
end Stepwise
