import Stepwise.Proofs.Session.Departing

namespace Stepwise

variable {ρ : Type} {E : Engine} {s t : Shared ρ}

namespace Shared

/-- A thread that takes no more commands leaves none behind. -/
structure Closed (s : Shared ρ) : Prop where
  ending : s.worker.isEnding = !s.alive
  emptied : s.alive = false → s.commands = []

/-- The execution in flight is the youngest, and the session knows that a script is executing. -/
def OneInFlight (s : Shared ρ) : Prop :=
  s.inFlight = [] ∨
    (s.session.executing = true ∧
      ∃ done, s.executions = done ++ [.pending] ∧ s.inFlight = [done.length])

namespace Closed

theorem close (s : Shared ρ) (crashed : Bool) : (s.close crashed).Closed :=
  ⟨rfl, fun _ => rfl⟩

theorem send (h : s.Closed) (c : Command) : (s.send c).Closed := by
  refine ⟨by simpa using h.ending, ?_⟩
  intro ha
  rw [alive_send] at ha
  rw [commands_send, if_neg (by simp [ha])]
  exact h.emptied ha

/-- A thread that works takes commands, or will. -/
theorem working (h : s.Closed) (hw : s.worker.isEnding = false) : s.alive = true := by
  simpa [hw] using h.ending

/-- The thread goes on to some other work. -/
theorem goOn (h : s.Closed) (hw : s.worker.isEnding = false) (ha : t.alive = s.alive)
    (ht : t.worker.isEnding = false) : t.Closed := by
  have hl : t.alive = true := ha.trans (h.working hw)
  refine ⟨by simp [ht, hl], ?_⟩
  intro hf
  rw [hl] at hf
  cases hf

end Closed
end Shared

open Shared

theorem Ran.isEnding {execution : Nat} {closing : Bool} {w : Worker ρ} (h : Ran execution closing w) :
    w.isEnding = false := by
  cases h <;> rfl

theorem Ran.execution? {execution : Nat} {closing : Bool} {w : Worker ρ}
    (h : Ran execution closing w) : w.execution? = some execution := by
  cases h <;> rfl

theorem Move.closed (m : Move s t) (h : s.Closed) : t.Closed := by
  cases m with
  | stay => exact h
  | receive => exact ⟨h.ending, h.emptied⟩
  | leaveStop next action =>
    have hs : Shared.Closed { s with session := s.session.leaveStop next } :=
      ⟨h.ending, h.emptied⟩
    exact hs.send (.resume action)
  | askAbort => exact ⟨h.ending, h.emptied⟩
  | leave =>
    split
    · have hs := h.send (.resume .abort)
      exact ⟨hs.ending, hs.emptied⟩
    · exact ⟨h.ending, h.emptied⟩
  | execute _ _ _ alive | ask _ _ alive | shutDown alive =>
    refine ⟨h.ending, ?_⟩
    intro ha
    rw [alive] at ha
    cases ha
  | pass _ _ _ _ taking _ | refuse _ _ _ _ _ taking _ _ | drop _ _ _ taking _ _ =>
    exact h.goOn (by rw [taking]; rfl) rfl (by rw [taking]; rfl)
  | pick _ _ _ _ working _ | serve _ _ _ working _ | launch _ _ _ _ working _
    | resume _ _ _ _ working _ | stopRun _ _ _ _ working _ _ | goOn _ _ working _
    | halt _ _ _ _ working _ | refuseHalt _ _ _ working _ | complete _ _ working =>
    exact h.goOn (by rw [working]; rfl) rfl rfl
  | run _ _ _ running ran => exact h.goOn (by rw [running]; rfl) rfl ran.isEnding
  | crash | stop | completeLast => exact .close _ _
  | exit crashed exiting =>
    have ha : s.alive = false := by simpa [exiting, Worker.isEnding] using h.ending
    exact ⟨by simp [Worker.isEnding, ha], h.emptied⟩

namespace Shared

theorem inFlight_send {c : Command} (s : Shared ρ) (hc : c.execution? = none) :
    (s.send c).inFlight = s.inFlight := by
  unfold inFlight
  rw [worker_send, commands_send]
  split
  · simp [hc]
  · rfl

/-- A thread that is busy with an execution has no other one waiting. -/
theorem OneInFlight.alone (h : s.OneInFlight) {execution : Nat}
    (hw : s.worker.execution? = some execution) :
    s.session.executing = true ∧ s.commands.filterMap Command.execution? = [] ∧
      ∃ done, s.executions = done ++ [.pending] ∧ execution = done.length := by
  rcases h with h | ⟨hx, done, he, h⟩
  · simp [inFlight, hw] at h
  · rw [inFlight, hw] at h
    obtain ⟨rfl, hc⟩ := List.cons.inj h
    exact ⟨hx, hc, done, he, rfl⟩

theorem OneInFlight.same (h : s.OneInFlight) (hi : t.inFlight = s.inFlight)
    (hx : t.session.executing = s.session.executing) (he : t.executions = s.executions) :
    t.OneInFlight := by
  unfold OneInFlight
  rw [hi, hx, he]
  exact h

end Shared

theorem Move.oneInFlight (m : Move s t) (hc : s.Closed) (h : s.OneInFlight) : t.OneInFlight := by
  cases m with
  | stay => exact h
  | receive _ received => exact h.same rfl (Session.executing_receive received) rfl
  | leaveStop => exact h.same (inFlight_send _ rfl) (by simp) (by simp)
  | execute source live free alive =>
    have hi : s.inFlight = [] := by
      rcases h with h | ⟨hx, _⟩
      · exact h
      · rw [free] at hx
        cases hx
    refine .inr ⟨rfl, s.executions, rfl, ?_⟩
    rw [inFlight, List.append_eq_nil_iff] at hi
    simp [inFlight, hi, Command.execution?]
  | askAbort => exact h.same rfl rfl rfl
  | leave =>
    split
    · exact h.same (inFlight_send s rfl) (by simp [terminate]) (by simp [terminate])
    · exact h.same rfl (by simp [terminate]) rfl
  | ask | shutDown => exact h.same (by simp [inFlight, Command.execution?]) rfl rfl
  | pass _ _ _ _ _ queued | drop _ _ _ _ _ queued =>
    exact h.same (by simp [inFlight, queued, List.filterMap_cons, Command.execution?]) rfl rfl
  | pick _ _ _ _ working queued | launch _ _ _ _ working queued
    | resume _ _ _ _ working queued =>
    exact h.same (by simp [inFlight, working, queued, List.filterMap_cons, Worker.execution?,
      Post.execution?, Command.execution?]) rfl rfl
  | stopRun _ _ _ _ working busy queued =>
    exact h.same (by simp [inFlight, working, busy, queued, List.filterMap_cons, Worker.execution?,
      Command.execution?]) rfl rfl
  | serve _ _ _ serving same =>
    exact h.same (by simp [inFlight, serving, Worker.execution?]) same.executing rfl
  | goOn _ _ working _ | halt _ _ _ _ working _ | refuseHalt _ _ _ working _ =>
    exact h.same (by simp [inFlight, working, Worker.execution?, Post.execution?]) rfl rfl
  | run _ _ _ running ran =>
    exact h.same (by rw [inFlight, ran.execution?, inFlight, running]; rfl) rfl rfl
  | refuse post busy _ execution _ taking run queued =>
    -- A busy thread never finds another execution in its queue.
    obtain ⟨_, hn, _⟩ := h.alone (show s.worker.execution? = some busy by rw [taking]; exact run)
    simp [queued, Command.execution?] at hn
  | complete _ execution completing =>
    obtain ⟨_, hn, _⟩ := h.alone (show s.worker.execution? = some execution by rw [completing]; rfl)
    exact .inl hn
  | crash | stop | completeLast => exact .inl rfl
  | exit _ exiting =>
    left
    have ha : s.alive = false := by simpa [exiting, Worker.isEnding] using hc.ending
    simp [inFlight, hc.emptied ha, Worker.execution?]

namespace System

variable {s : System E} {around : Surroundings} {engine : E.State} {interrupts : Interrupts}

theorem closed_reaches (h : Reaches (opened around engine interrupts) s) : s.shared.Closed :=
  shared_reaches h ⟨rfl, fun _ => rfl⟩ fun _ m => m.closed

theorem oneInFlight_reaches (h : Reaches (opened around engine interrupts) s) :
    s.shared.OneInFlight :=
  shared_reaches h (.inl rfl) fun hr m => m.oneInFlight (closed_reaches hr)

end System
end Stepwise
