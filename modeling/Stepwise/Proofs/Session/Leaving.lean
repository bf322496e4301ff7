import Mathlib
import Stepwise.Proofs.Session.Attended
import Stepwise.Script.Engine
import Stepwise.Script.Samples

namespace Stepwise.System

variable {E : Engine} {s t : System E}

/-- The thread, left to itself, leaves its halt. -/
inductive Leaves : System E → Prop
  | left {s : System E} (h : s.worker.isHalted = false) : Leaves s
  | work {s t : System E} (h : s.step .work = some t) (ht : Leaves t) : Leaves s

/-- A client that begins the operation has it done, and the thread leaves its halt. -/
def LeftBy (s : System E) (operation : Operation) : Prop :=
  ∀ cancelled, ∃ t,
    (s.begin operation cancelled).step (.advance s.calls.length) = some t ∧
    t.calls = s.calls ++ [{ operation, cancelled, phase := .returned (.ok .done) }] ∧ t.Leaves

/-- A request is served and the thread is back in its halt, unless it goes down. -/
theorem serve_cases (s : System E) (post : Post E.Run) (call : Nat) (request : Request) :
    (s.serve post call request).worker.isHalted = false ∨
      ((s.serve post call request).worker = .taking post ∧
        (s.serve post call request).commands = s.commands) := by
  unfold serve
  split
  · exact .inr ⟨rfl, rfl⟩
  rcases ((request.serve E.context s.session.around.home).run.run s.session).run s.engine
    with ⟨_ | ⟨result, session⟩, engine⟩
  · exact .inl rfl
  · exact .inr ⟨rfl, rfl⟩

theorem work_of_serving {post : Post E.Run} {call : Nat} {request : Request}
    (hw : s.worker = .serving post call request) :
    s.step .work = some (s.serve post call request) := by
  simp [step, work, hw]

theorem work_of_taking {post : Post E.Run} {c : Command} {rest : List Command}
    (hw : s.worker = .taking post) (hc : s.commands = c :: rest) :
    s.step .work = some (({ s with commands := rest } : System E).take post c) := by
  simp [step, work, hw, hc]

theorem leaves_of_serving {post : Post E.Run} {call : Nat} {request : Request}
    (hw : s.worker = .serving post call request)
    (taking : ∀ {t : System E}, t.worker = .taking post → t.commands = s.commands → t.Leaves) :
    s.Leaves := by
  apply Leaves.work (work_of_serving hw)
  rcases serve_cases s post call request with hl | ⟨ht, hc⟩
  · exact .left hl
  · exact taking ht hc

theorem leaves_of_taking {run : Resume → E.Run} {execution : Nat} {commands : List Command}
    (hw : s.worker = .taking (.halted run execution)) (hq : s.commands = commands)
    (hl : ∃ c ∈ commands, c.leavesHalt = true) : s.Leaves := by
  induction commands generalizing s with
  | nil =>
    obtain ⟨c, hc, _⟩ := hl
    cases hc
  | cons c rest ih =>
    apply Leaves.work (work_of_taking hw hq)
    cases c with
    | resume action => exact .left rfl
    | shutdown => exact .left rfl
    | execute source other =>
      have hr : ∃ d ∈ rest, d.leavesHalt = true := by simpa [Command.leavesHalt] using hl
      exact ih hw rfl hr
    | serve call request =>
      have hr : ∃ d ∈ rest, d.leavesHalt = true := by simpa [Command.leavesHalt] using hl
      simp only [take]
      split
      · exact ih hw rfl hr
      · exact leaves_of_serving rfl fun ht hc => ih ht hc hr

/-- No request can keep the thread in the halt once the command to go on is queued. -/
theorem leaves_of_queued (hw : s.worker.isHalted = true)
    (hl : ∃ c ∈ s.commands, c.leavesHalt = true) : s.Leaves := by
  cases hs : s.worker with
  | taking post =>
    cases post with
    | halted run execution => exact leaves_of_taking hs rfl hl
    | idle | safePoint => simp [hs, Worker.isHalted, Post.isHalted] at hw
  | serving post call request =>
    cases post with
    | halted run execution =>
      exact leaves_of_serving hs fun ht hc => leaves_of_taking ht hc hl
    | idle | safePoint => simp [hs, Worker.isHalted, Post.isHalted] at hw
  | running | halting | completing | exiting | exited => simp [hs, Worker.isHalted] at hw

/-- The operations by which clients leave a halt. -/
def leaving : List Operation :=
  [.continue, .stepOver, .stepIn, .stepOut, .abort]

theorem resume_of_stopped (hs : s.session.runState = .stopped) (ha : s.alive = true)
    (control : Control) (action : Resume) :
    s.resume control action =
      (.ok .done, { s with
        session := s.session.leaveStop .running
        commands := s.commands ++ [.resume action] }) := by
  have hl : s.session.ensureLive = .ok () := by simp [Session.ensureLive, hs]
  simp [resume, hl, hs, send, ha]

theorem requestAbort_of_stopped (hs : s.session.runState = .stopped) (ha : s.alive = true) :
    s.requestAbort =
      (.ok .done, { s with
        session := s.session.leaveStop .aborting
        commands := s.commands ++ [.resume .abort] }) := by
  have hl : s.session.ensureLive = .ok () := by simp [Session.ensureLive, hs]
  simp [requestAbort, hl, hs, send, ha]

theorem atOnce_of_stopped (hs : s.session.runState = .stopped) (ha : s.alive = true)
    {operation : Operation} (ho : operation ∈ leaving) :
    ∃ next action, s.atOnce operation =
      (.ok .done, { s with
        session := s.session.leaveStop next
        commands := s.commands ++ [.resume action] }) := by
  simp only [leaving, List.mem_cons, List.not_mem_nil, or_false] at ho
  rcases ho with rfl | rfl | rfl | rfl | rfl
  · exact ⟨_, _, resume_of_stopped hs ha .continue .continue⟩
  · exact ⟨_, _, resume_of_stopped hs ha .stepOver .stepOver⟩
  · exact ⟨_, _, resume_of_stopped hs ha .stepIn .stepIn⟩
  · exact ⟨_, _, resume_of_stopped hs ha .stepOut .stepOut⟩
  · exact ⟨_, _, requestAbort_of_stopped hs ha⟩

theorem enter_leaving (hp : s.poisoned = false) {call : Nat} {operation : Operation}
    (ho : operation ∈ leaving) :
    s.enter call operation =
      (s.atOnce operation).2.setPhase call (.returned (s.atOnce operation).1) := by
  simp only [leaving, List.mem_cons, List.not_mem_nil, or_false] at ho
  rcases ho with rfl | rfl | rfl | rfl | rfl <;> simp [enter, hp]

theorem leftBy_of_stopped (hp : s.poisoned = false) (ha : s.alive = true)
    (hw : s.worker.isHalted = true) (hs : s.session.runState = .stopped) {operation : Operation}
    (ho : operation ∈ leaving) : s.LeftBy operation := by
  intro cancelled
  have hb : (s.begin operation cancelled).calls[s.calls.length]? =
      some { operation, cancelled } := by simp [begin]
  obtain ⟨next, action, he⟩ := atOnce_of_stopped (s := s.begin operation cancelled) hs ha ho
  have hs : (s.begin operation cancelled).step (.advance s.calls.length) =
      some ((s.begin operation cancelled).enter s.calls.length operation) := by
    simp [step, advance, hb]
  refine ⟨_, hs, ?_, ?_⟩
  · rw [enter_leaving (s := s.begin operation cancelled) hp ho, he]
    simp [setPhase, begin, List.modify_eq_take_drop]
  · rw [enter_leaving (s := s.begin operation cancelled) hp ho, he]
    exact leaves_of_queued hw ⟨_, List.mem_concat_self, rfl⟩

/-- While the thread sits in a halt, either a client can leave it, in every way there is, or it has
been left already and the thread gets to know. -/
theorem halt_can_be_left {around : Surroundings} {engine : E.State} {interrupts : Interrupts}
    (h : Reaches (opened around engine interrupts) s) (hw : s.worker.isHalted = true) :
    s.poisoned = false ∧
      ((s.session.runState = .stopped ∧ ∀ operation ∈ leaving, s.LeftBy operation) ∨
        ((∃ c ∈ s.commands, c.leavesHalt = true) ∧ s.Leaves)) := by
  have hc : s.shared.Closed := closed_reaches h
  have ha : s.alive = true := hc.working (Worker.isEnding_of_isHalted hw)
  have hp : s.poisoned = false := by
    cases hp : s.poisoned with
    | false => rfl
    | true =>
      have hd := (departing_reaches h).dead hp
      rw [ha] at hd
      cases hd
  refine ⟨hp, ?_⟩
  rcases (attended_reaches h).halted hw with hs | hq
  · exact .inl ⟨hs, fun _ => leftBy_of_stopped hp ha hw hs⟩
  · exact .inr ⟨hq, leaves_of_queued hw hq⟩

/-- A script that is broken into before its first statement waits for its clients. -/
theorem halt_can_be_left_at_break :
    ∃ s : System (scriptEngine { inlines := [("count", .counting 1)] }),
      Reaches (opened { home := .at ⟨"/"⟩ } (Script.State.initial [] []) { breakRequested := true }) s ∧
      s.worker.isHalted = true ∧ s.poisoned = false ∧
      s.session.runState = .stopped ∧ ∀ operation ∈ leaving, s.LeftBy operation := by
  have hf : ((opened { home := .at ⟨"/"⟩ } (Script.State.initial [] []) { breakRequested := true } :
      System (scriptEngine { inlines := [("count", .counting 1)] })).follow
      [.begin (.execute (.inline "count")) false, .advance 0, .work, .work, .work, .work, .work]).any
      (fun s => s.worker.isHalted && s.commands.isEmpty) = true := by cbv
  obtain ⟨s, hr, hp⟩ := exists_reaches hf
  obtain ⟨hw, hq⟩ := Bool.and_eq_true_iff.mp hp
  obtain ⟨hs, hl | ⟨⟨c, hc, _⟩, _⟩⟩ := halt_can_be_left hr hw
  · exact ⟨s, hr, hw, hs, hl⟩
  · rw [List.isEmpty_iff.mp hq] at hc
    cases hc

end Stepwise.System
