import Stepwise.Proofs.Session.InFlight

namespace Stepwise

variable {ρ : Type} {E : Engine} {s t : Shared ρ}

theorem Command.leavesHalt_of_isResume {c : Command} (h : c.isResume = true) :
    c.leavesHalt = true := by
  cases c with
  | resume action => rfl
  | _ => cases h

namespace Shared

/-- A halt is left by the command that is queued when the session leaves it.  Until then the
session is stopped, and the thread gets no second command to resume. -/
structure Attended (s : Shared ρ) : Prop where
  stopped : s.session.runState = .stopped → s.worker.isHalted = true ∨ s.worker = .exiting true
  halted : s.worker.isHalted = true →
    s.session.runState = .stopped ∨ ∃ c ∈ s.commands, c.leavesHalt = true
  resumed : ∀ c ∈ s.commands, c.isResume = true →
    s.worker.isHalted = true ∧ s.session.runState ≠ .stopped
  shutDown : .shutdown ∈ s.commands → s.session.runState = .terminated
  order : s.commands.Pairwise fun c d => c.leavesHalt = true → d.isResume = false

namespace Attended

/-- Who could leave the halt has not been told to. -/
theorem not_leaving (h : s.Attended) (hs : s.session.runState = .stopped) {c : Command}
    (hc : c ∈ s.commands) : c.leavesHalt = false := by
  cases c with
  | resume action => exact absurd hs (h.resumed _ hc rfl).2
  | shutdown =>
    have ht := h.shutDown hc
    rw [hs] at ht
    cases ht
  | _ => rfl

theorem not_stopped (h : s.Attended) (hw : s.worker.isHalted = false)
    (he : s.worker.isEnding = false) : s.session.runState ≠ .stopped := by
  intro hs
  rcases h.stopped hs with hh | hx
  · rw [hw] at hh
    cases hh
  · rw [hx] at he
    cases he

theorem halted_of_stopped (h : s.Attended) (hc : s.Closed) (hs : s.session.runState = .stopped)
    (ha : s.alive = true) : s.worker.isHalted = true := by
  rcases h.stopped hs with hw | hx
  · exact hw
  · have he : s.alive = false := by simpa [hx, Worker.isEnding] using hc.ending
    rw [he] at ha
    cases ha

/-- A session with nothing to execute is not halted. -/
theorem not_stopped_of_free (h : s.Attended) (hc : s.Closed) (ho : s.OneInFlight)
    (alive : s.alive = true) (free : s.session.executing = false) :
    s.session.runState ≠ .stopped := by
  refine h.not_stopped ?_ (by simpa [alive] using hc.ending)
  cases hw : s.worker.isHalted with
  | false => rfl
  | true =>
    obtain ⟨execution, he⟩ := Worker.execution?_of_isHalted hw
    have hx := (ho.alone he).1
    rw [free] at hx
    cases hx

theorem no_resume (h : s.Attended) (hw : s.worker.isHalted = false) {c : Command}
    (hc : c ∈ s.commands) : c.isResume = false := by
  cases hr : c.isResume with
  | false => rfl
  | true =>
    have hh := (h.resumed c hc hr).1
    rw [hw] at hh
    cases hh

/-- A command that does not resume is queued. -/
theorem queue (h : s.Attended) {c : Command} (hr : c.isResume = false)
    (hs : c = .shutdown → s.session.runState = .terminated) :
    Attended { s with commands := s.commands ++ [c] } := by
  refine ⟨h.stopped, ?_, ?_, ?_, ?_⟩
  · intro hw
    rcases h.halted hw with hs | ⟨d, hd, hl⟩
    · exact .inl hs
    · exact .inr ⟨d, List.mem_append_left _ hd, hl⟩
  · intro d hd hdr
    rcases List.mem_append.mp hd with hd | hd
    · exact h.resumed d hd hdr
    · rw [List.mem_singleton.mp hd, hr] at hdr
      cases hdr
  · intro hd
    rcases List.mem_append.mp hd with hd | hd
    · exact h.shutDown hd
    · exact hs (List.mem_singleton.mp hd).symm
  · refine List.pairwise_append.mpr ⟨h.order, List.pairwise_singleton _ _, ?_⟩
    intro d _ e he _
    rw [List.mem_singleton.mp he]
    exact hr

/-- The session leaves the halt and tells the thread. -/
theorem release (h : s.Attended) (hc : s.Closed) (hs : s.session.runState = .stopped)
    {session : Session} (hn : session.runState ≠ .stopped) (action : Resume) :
    Attended (Shared.send { s with session } (.resume action)) := by
  have hl : ∀ c ∈ s.commands, c.leavesHalt = false := fun c => h.not_leaving hs
  have hr : ∀ c ∈ s.commands, c.isResume = false := by
    intro c hm
    cases hi : c.isResume with
    | false => rfl
    | true => exact absurd (Command.leavesHalt_of_isResume hi) (by simp [hl c hm])
  have hd : .shutdown ∉ s.commands := fun hm => absurd (hl _ hm) (by simp [Command.leavesHalt])
  unfold send
  split
  · next ha =>
    have hw : s.worker.isHalted = true := h.halted_of_stopped hc hs ha
    refine ⟨fun hc => absurd hc hn, fun _ => .inr ⟨_, List.mem_concat_self, rfl⟩, ?_, ?_, ?_⟩
    · exact fun _ _ _ => ⟨hw, hn⟩
    · intro hm
      rcases List.mem_append.mp hm with hm | hm
      · exact absurd hm hd
      · cases List.mem_singleton.mp hm
    · refine List.pairwise_append.mpr ⟨h.order, List.pairwise_singleton _ _, ?_⟩
      intro c hm _ _ hcl
      rw [hl c hm] at hcl
      cases hcl
  · -- Nobody is there to be told, so nobody sits in a halt.
    next ha =>
    have ha : s.alive = false := Bool.eq_false_iff.mpr ha
    have he : s.worker.isEnding = true := by simpa [ha] using hc.ending
    refine ⟨fun hc => absurd hc hn, ?_, ?_, fun hm => absurd hm hd, h.order⟩
    · intro hw
      rw [Worker.isEnding_of_isHalted hw] at he
      cases he
    · intro c hm hcr
      rw [hr c hm] at hcr
      cases hcr

/-- The state of the session stays what it is. -/
theorem sameState (h : s.Attended) {session : Session}
    (hs : session.runState = s.session.runState) : Attended { s with session } :=
  ⟨hs ▸ h.stopped, hs ▸ h.halted, hs ▸ h.resumed, hs ▸ h.shutDown, h.order⟩

theorem executions (h : s.Attended) (executions : List Execution) :
    Attended { s with executions } :=
  ⟨h.stopped, h.halted, h.resumed, h.shutDown, h.order⟩

/-- The session goes from one state without a halt to another one. -/
theorem change (h : s.Attended) (hs : s.session.runState ≠ .stopped) {session : Session}
    (hn : session.runState ≠ .stopped)
    (ht : s.session.runState = .terminated → session.runState = .terminated) :
    Attended { s with session } := by
  refine ⟨fun hc => absurd hc hn, ?_, ?_, fun hm => ht (h.shutDown hm), h.order⟩
  · intro hw
    exact .inr ((h.halted hw).resolve_left hs)
  · exact fun c hm hr => ⟨(h.resumed c hm hr).1, hn⟩

/-- The thread takes a command that it does not leave a halt by. -/
theorem pop (h : s.Attended) {c : Command} {rest : List Command} (hq : s.commands = c :: rest)
    (hc : c.leavesHalt = false) : Attended { s with commands := rest } := by
  obtain ⟨hst, hh, hr, hd, ho⟩ := h
  rw [hq] at hh hr hd ho
  refine ⟨hst, ?_, ?_, ?_, (List.pairwise_cons.mp ho).2⟩
  · intro hw
    rcases hh hw with hs | ⟨d, hm, hl⟩
    · exact .inl hs
    · rcases List.mem_cons.mp hm with rfl | hm
      · rw [hc] at hl
        cases hl
      · exact .inr ⟨d, hm, hl⟩
  · exact fun d hm => hr d (List.mem_cons_of_mem c hm)
  · exact fun hm => hd (List.mem_cons_of_mem c hm)

/-- The thread goes on without entering or leaving a halt. -/
theorem goOn (h : s.Attended) {worker : Worker ρ} (he : s.worker.isEnding = false)
    (hw : worker.isHalted = s.worker.isHalted) : Attended { s with worker } := by
  refine ⟨?_, hw ▸ h.halted, hw ▸ h.resumed, h.shutDown, h.order⟩
  intro hs
  rcases h.stopped hs with hh | hx
  · exact .inl (hw.trans hh)
  · rw [hx] at he
    cases he

/-- The thread takes the command by which the halt is left; no other one to resume is behind it. -/
theorem letGo (h : s.Attended) {c : Command} {rest : List Command} {worker : Worker ρ}
    (hq : s.commands = c :: rest) (hc : c.leavesHalt = true) (hw : worker.isHalted = false) :
    Attended { s with commands := rest, worker } := by
  have hn : s.session.runState ≠ .stopped := by
    intro hs
    have hl := h.not_leaving hs (hq ▸ List.mem_cons_self)
    rw [hc] at hl
    cases hl
  obtain ⟨_, _, _, hd, ho⟩ := h
  rw [hq] at hd ho
  obtain ⟨hl, ho⟩ := List.pairwise_cons.mp ho
  refine ⟨fun hs => absurd hs hn, ?_, ?_, fun hm => hd (List.mem_cons_of_mem c hm), ho⟩
  · intro hh
    rw [hw] at hh
    cases hh
  · intro d hm hr
    rw [hl d hm hc] at hr
    cases hr

/-- A halt that the session accepts: nothing is queued yet that would leave it. -/
theorem hold (h : s.Attended) {session : Session} {worker : Worker ρ}
    (hw : s.worker.isHalted = false) (hs : s.session.runState ≠ .terminated)
    (hn : session.runState = .stopped) (hh : worker.isHalted = true) :
    Attended { s with session, worker } := by
  refine ⟨fun _ => .inl hh, fun _ => .inl hn, ?_, fun hm => absurd (h.shutDown hm) hs, h.order⟩
  intro c hm hr
  rw [h.no_resume hw hm] at hr
  cases hr

theorem close {crashed : Bool} (hs : s.session.runState = .stopped → crashed = true) :
    (s.close crashed).Attended := by
  refine ⟨?_, nofun, nofun, nofun, .nil⟩
  intro h
  exact .inr (congrArg Worker.exiting (hs h))

theorem exit (h : s.Attended) (hw : s.worker.isHalted = false) (crashed : Bool) :
    Attended { s with session := s.session.exit crashed, worker := (.exited : Worker ρ) } := by
  refine ⟨?_, ?_, ?_, fun _ => Session.runState_exit _ _, h.order⟩
  · intro hs
    rw [Session.runState_exit] at hs
    cases hs
  · intro hh
    cases hh
  · intro c hm hr
    rw [h.no_resume hw hm] at hr
    cases hr

end Attended
end Shared

open Shared

theorem Ran.isHalted {execution : Nat} {closing : Bool} {w : Worker ρ}
    (h : Ran execution closing w) : w.isHalted = false := by
  cases h <;> rfl

/-- A session without a halt completes a script without one. -/
theorem Session.runState_complete_ne_stopped {s : Session} (outcome : Outcome) :
    (s.complete outcome).runState ≠ .stopped := by
  rcases complete_cases s outcome with h | ⟨_, h⟩
  · rw [h, runState_terminate]
    simp
  · rw [h]
    simp

theorem Move.attended (m : Move s t) (hc : s.Closed) (ho : s.OneInFlight) (h : s.Attended) :
    t.Attended := by
  cases m with
  | stay => exact h
  | receive _ received => exact h.sameState (Session.runState_receive received)
  | leaveStop next action stopped onward =>
    refine h.release hc stopped ?_ action
    rcases onward with rfl | rfl <;> simp
  | execute source live free alive =>
    have hs : s.session.runState ≠ .stopped := h.not_stopped_of_free hc ho alive free
    have ha : Attended { s with session := { s.session with executing := true, runState := .running } } :=
      h.change hs (by simp) fun ht => absurd ht live
    exact (ha.queue (c := .execute source s.executions.length) rfl nofun).executions _
  | askAbort running =>
    refine h.change (by simp [running]) (by simp) ?_
    intro ht
    rw [running] at ht
    cases ht
  | leave =>
    split
    · next hs =>
      rw [terminate_send]
      exact h.release hc hs (by simp) .abort
    · next hs => exact h.change hs (by simp) fun _ => Session.runState_terminate _
  | ask => exact h.queue rfl nofun
  | shutDown _ left => exact h.queue rfl fun _ => left
  | pass _ _ _ _ _ queued => exact h.pop queued rfl
  | pick _ _ _ _ taking queued =>
    exact (h.pop queued rfl).goOn (by simp [taking, Worker.isEnding])
      (by simp [taking, Worker.isHalted])
  | serve _ _ _ serving same =>
    exact (h.sameState same.runState).goOn (by simp [serving, Worker.isEnding])
      (by simp [serving, Worker.isHalted])
  | crash => exact .close fun _ => rfl
  | launch _ _ _ _ idle queued =>
    exact (h.pop queued rfl).goOn (by simp [idle, Worker.isEnding])
      (by simp [idle, Worker.isHalted, Post.isHalted])
  | refuse _ _ _ _ _ _ _ queued =>
    exact (h.pop queued rfl).executions _
  | resume _ _ _ _ _ queued => exact h.letGo queued rfl rfl
  | drop post action rest taking running queued =>
    have hr := h.no_resume (c := .resume action) (by simp [taking, Worker.isHalted, running])
      (queued ▸ List.mem_cons_self)
    cases hr
  | stop rest _ queued =>
    refine .close ?_
    intro hs
    have ht := h.shutDown (queued ▸ List.mem_cons_self)
    rw [ht] at hs
    cases hs
  | stopRun _ _ _ _ _ _ queued => exact h.letGo queued rfl rfl
  | goOn _ _ taking =>
    exact h.goOn (by simp [taking, Worker.isEnding])
      (by simp [taking, Worker.isHalted, Post.isHalted])
  | run _ _ _ running ran =>
    exact h.goOn (by simp [running, Worker.isEnding])
      (ran.isHalted.trans (by simp [running, Worker.isHalted]))
  | halt _ _ _ _ halting accepted =>
    refine h.hold (by simp [halting, Worker.isHalted]) ?_ rfl rfl
    rcases accepted with ha | ha <;> simp [ha]
  | refuseHalt _ _ _ halting =>
    exact h.goOn (by simp [halting, Worker.isEnding]) (by simp [halting, Worker.isHalted])
  | complete outcome _ completing =>
    have hs : s.session.runState ≠ .stopped :=
      h.not_stopped (by simp [completing, Worker.isHalted]) (by simp [completing, Worker.isEnding])
    have ha := h.change hs (s.session.runState_complete_ne_stopped outcome) fun ht => by
      rw [Session.complete_of_terminated ht]
      exact ht
    exact (ha.goOn (by simp [completing, Worker.isEnding])
      (by simp [completing, Worker.isHalted, Post.isHalted])).executions _
  | completeLast outcome =>
    exact .close fun hs => absurd hs (s.session.runState_complete_ne_stopped outcome)
  | exit _ exiting => exact h.exit (by simp [exiting, Worker.isHalted]) _

theorem System.attended_reaches {s : System E} {around : Surroundings} {engine : E.State}
    {interrupts : Interrupts} (h : Reaches (opened around engine interrupts) s) :
    s.shared.Attended :=
  shared_reaches h ⟨nofun, nofun, nofun, nofun, .nil⟩ fun hr m =>
    m.attended (closed_reaches hr) (oneInFlight_reaches hr)

end Stepwise
