import Stepwise.Proofs.Session.Move

namespace Stepwise

variable {E : Engine}

namespace System

def shared (s : System E) : Shared E.Run :=
  ⟨s.session, s.poisoned, s.commands, s.alive, s.worker, s.executions⟩

@[simp] theorem shared_setPhase (s : System E) (call : Nat) (phase : Phase) :
    (s.setPhase call phase).shared = s.shared := rfl

theorem shared_send (s : System E) (c : Command) :
    ((s.send c).getD s).shared = s.shared.send c := by
  unfold send Shared.send
  by_cases h : s.alive = true
  · simp [h, shared]
  · simp [h, shared]

theorem shared_discard (s : System E) (cs : List Command) :
    (s.discard cs).shared =
      { s.shared with
        executions := Shared.lose s.executions (cs.filterMap Command.execution?) } := by
  induction cs generalizing s with
  | nil => rfl
  | cons c rest ih => cases c <;> exact ih _

theorem shared_close (s : System E) (crashed : Bool) :
    (s.close crashed).shared = s.shared.close crashed := by
  have h := shared_discard s s.commands
  simp only [shared, Shared.mk.injEq] at h
  simp [close, Shared.close, shared, h]

theorem shared_crash (s : System E) (execution : Option Nat) (poisoned : Bool) :
    (s.crash execution poisoned).shared =
      Shared.close { s.shared with
        executions := Shared.lose s.shared.executions execution.toList
        poisoned := s.shared.poisoned || poisoned } true := by
  unfold crash
  rw [shared_close]
  cases execution <;> rfl

variable {s t : System E}

theorem take_move {post : Post E.Run} {c : Command} {rest : List Command}
    (hw : s.worker = .taking post) (hc : s.commands = c :: rest) :
    Move s.shared (({ s with commands := rest } : System E).take post c).shared := by
  cases c with
  | serve call request =>
    simp only [take]
    split
    · exact .pass s.shared post call request rest hw hc
    · exact .pick s.shared post call request rest hw hc
  | execute source execution =>
    cases post with
    | idle => exact .launch s.shared (E.launch source) source execution rest hw hc
    | safePoint run busy => exact .refuse s.shared _ busy source execution rest hw rfl hc
    | halted run busy => exact .refuse s.shared _ busy source execution rest hw rfl hc
  | resume action =>
    cases post with
    | idle => exact .drop s.shared _ action rest hw rfl hc
    | safePoint run execution => exact .drop s.shared _ action rest hw rfl hc
    | halted run execution => exact .resume s.shared run execution action rest hw hc
  | shutdown =>
    cases post with
    | idle =>
      simp only [take, shared_close]
      exact .stop s.shared rest hw hc
    | safePoint run execution => exact .stopRun s.shared _ run execution rest hw rfl hc
    | halted run execution => exact .stopRun s.shared _ (run .abort) execution rest hw rfl hc

/-- The thread goes down with what it is busy with; what clients do not see may have changed. -/
theorem crash_move {u : System E} {execution : Option Nat} (poisoned : Bool)
    (he : s.worker.execution? = execution) (hn : s.worker.isEnding = false)
    (hu : u.shared = s.shared) :
    Move s.shared (u.crash execution poisoned).shared := by
  rw [shared_crash, hu, ← he]
  exact .crash s.shared poisoned hn

theorem serve_move {post : Post E.Run} {call : Nat} {request : Request}
    (hw : s.worker = .serving post call request) :
    Move s.shared (s.serve post call request).shared := by
  unfold serve
  split
  · exact .serve s.shared post call request hw (.refl _)
  rcases hr : ((request.serve E.context s.session.around.home).run.run s.session).run s.engine
    with ⟨_ | ⟨result, session⟩, engine⟩
  · refine crash_move true ?_ ?_ ?_
    · rw [hw, Worker.execution?]
    · simp only [hw, Worker.isEnding]
    · rfl
  · have hs := request.serve_sameHalt E.context s.session.around.home hr
    exact .serve s.shared post call request hw hs

theorem run_move {r : E.Run} {execution : Nat} {closing : Bool} {ms : Nat}
    (hw : s.worker = .running r execution closing) (h : s.run r execution closing = some (t, ms)) :
    Move s.shared t.shared := by
  unfold run at h
  rcases hn : E.next r s.engine s.interrupts with ⟨signal, engine, interrupts⟩
  rw [hn] at h
  cases signal with
  | safePoint r' =>
    cases closing <;> cases h
    · exact .run s.shared r execution false hw (.safePoint r')
    · exact .run s.shared r execution true hw (.on r' true)
  | halted halt k =>
    cases closing <;> cases h
    · exact .run s.shared r execution false hw (.halted halt k)
    · exact .run s.shared r execution true hw (.on (k .abort) true)
  | paused ms' r' =>
    cases h
    exact .run s.shared r execution closing hw (.on r' closing)
  | blocked r' => cases h
  | finished outcome =>
    cases h
    exact .run s.shared r execution closing hw (.ended outcome closing)
  | crashed =>
    cases h
    refine crash_move false ?_ ?_ ?_
    · rw [hw, Worker.execution?]
    · simp only [hw, Worker.isEnding]
    · rfl

/-- A session that is about to end refuses every halt without asking the engine. -/
theorem halt_refused {σ : Type} {cx : Context σ} {session : Session} {e : σ}
    (hs : session.runState = .aborting ∨ session.runState = .terminated) (h : Halt) :
    (session.halt cx h).run e = (some (false, session), e) := by
  unfold Session.halt
  rcases hs with hs | hs <;> rw [hs] <;> rfl

/-- A session that is not about to end accepts every halt that the engine survives, with the call
stack that the engine gives. -/
theorem halt_cases {h : Halt} {session : Session} {engine engine' : E.State} {accepted : Bool}
    {before : Session}
    (hr : (before.halt E.context h).run engine = (some (accepted, session), engine')) :
    (accepted = true ∧ (before.runState = .running ∨ before.runState = .stopped) ∧
      ∃ stack, E.context.callStack.run engine = (some stack, engine') ∧
        session = before.hold h stack) ∨
    (accepted = false ∧ (before.runState = .aborting ∨ before.runState = .terminated) ∧
      session = before) := by
  unfold Session.halt at hr
  cases hs : before.runState with
  | aborting =>
    rw [hs] at hr
    cases hr
    simp
  | terminated =>
    rw [hs] at hr
    cases hr
    simp
  | running | stopped =>
    rw [hs] at hr
    simp only [OptionT.run_bind] at hr
    rcases hk : E.context.callStack.run engine with ⟨_ | stack, engine₁⟩
    · simp [hk, bind, StateT.bind, Option.elimM] at hr
      cases hr
    · simp [hk, bind, StateT.bind, Option.elimM] at hr
      cases hr
      exact .inl ⟨rfl, by simp, stack, rfl, rfl⟩

theorem tellHalt_move {h : Halt} {k : Resume → E.Run} {execution : Nat}
    (hw : s.worker = .halting h k execution) :
    Move s.shared (s.tellHalt h k execution).shared := by
  unfold tellHalt
  rcases hr : (s.session.halt E.context h).run s.engine with ⟨_ | ⟨accepted, session⟩, engine⟩
  · refine crash_move true ?_ ?_ ?_
    · rw [hw, Worker.execution?]
    · simp only [hw, Worker.isEnding]
    · rfl
  · rcases halt_cases hr with ⟨rfl, hs, stack, _, rfl⟩ | ⟨rfl, hs, rfl⟩
    · exact .halt s.shared h k execution stack hw hs
    · exact .refuseHalt s.shared h k execution hw hs

theorem tellEnd_move {outcome : Outcome} {execution : Nat} {closing : Bool}
    (hw : s.worker = .completing outcome execution closing) :
    Move s.shared (s.tellEnd outcome execution closing).shared := by
  cases closing with
  | false => exact .complete s.shared outcome execution hw
  | true =>
    unfold tellEnd
    simp only [↓reduceIte, shared_close]
    exact .completeLast s.shared outcome execution hw

theorem work_move {ms : Nat} (h : s.work = some (t, ms)) : Move s.shared t.shared := by
  unfold work at h
  split at h
  · next post hw =>
    split at h
    · next c rest hc =>
      cases h
      exact take_move hw hc
    · next hc =>
      cases post with
      | idle => cases h
      | safePoint run execution =>
        cases h
        exact .goOn s.shared run execution hw hc
      | halted run execution => cases h
  · next hw =>
    cases h
    exact serve_move hw
  · next hw => exact run_move hw h
  · next hw =>
    cases h
    exact tellHalt_move hw
  · next hw =>
    cases h
    exact tellEnd_move hw
  · next crashed hw =>
    cases h
    exact .exit s.shared crashed hw
  · cases h

theorem session_close (s : System E) (crashed : Bool) : (s.close crashed).session = s.session :=
  congrArg Shared.session (shared_close s crashed)

theorem session_crash (s : System E) (execution : Option Nat) (poisoned : Bool) :
    (s.crash execution poisoned).session = s.session :=
  congrArg Shared.session (shared_crash s execution poisoned)

theorem worker_crash (s : System E) (execution : Option Nat) (poisoned : Bool) :
    (s.crash execution poisoned).worker = .exiting true :=
  congrArg Shared.worker (shared_crash s execution poisoned)

theorem session_take (s : System E) (post : Post E.Run) (c : Command) :
    (s.take post c).session = s.session := by
  cases c with
  | serve call request =>
    simp only [take]
    split <;> rfl
  | execute source execution => cases post <;> rfl
  | resume action => cases post <;> rfl
  | shutdown =>
    cases post with
    | idle => exact session_close s false
    | _ => rfl

theorem session_run {r : E.Run} {execution : Nat} {closing : Bool} {ms : Nat}
    (h : s.run r execution closing = some (t, ms)) : t.session = s.session := by
  unfold run at h
  rcases hn : E.next r s.engine s.interrupts with ⟨signal, engine, interrupts⟩
  rw [hn] at h
  cases signal with
  | safePoint r' => cases closing <;> cases h <;> rfl
  | halted halt k => cases closing <;> cases h <;> rfl
  | blocked r' => cases h
  | crashed =>
    cases h
    exact session_crash _ (some execution) false
  | paused | finished =>
    cases h
    rfl

theorem engine_discard (s : System E) (cs : List Command) : (s.discard cs).engine = s.engine := by
  induction cs generalizing s with
  | nil => rfl
  | cons c rest ih => cases c <;> exact ih _

theorem engine_close (s : System E) (crashed : Bool) : (s.close crashed).engine = s.engine :=
  engine_discard s s.commands

theorem engine_crash (s : System E) (execution : Option Nat) (poisoned : Bool) :
    (s.crash execution poisoned).engine = s.engine := by
  unfold crash
  rw [engine_close]
  cases execution <;> rfl

theorem engine_take (s : System E) (post : Post E.Run) (c : Command) :
    (s.take post c).engine = s.engine := by
  cases c with
  | serve call request =>
    simp only [take]
    split <;> rfl
  | execute source execution => cases post <;> rfl
  | resume action => cases post <;> rfl
  | shutdown =>
    cases post with
    | idle => exact engine_close s false
    | _ => rfl

theorem engine_run {r : E.Run} {execution : Nat} {closing : Bool} {ms : Nat}
    (h : s.run r execution closing = some (t, ms)) :
    t.engine = (E.next r s.engine s.interrupts).2.1 := by
  unfold run at h
  rcases hn : E.next r s.engine s.interrupts with ⟨signal, engine, interrupts⟩
  rw [hn] at h
  cases signal with
  | safePoint r' => cases closing <;> cases h <;> rfl
  | halted halt k => cases closing <;> cases h <;> rfl
  | blocked r' => cases h
  | crashed =>
    cases h
    exact engine_crash _ (some execution) false
  | paused | finished =>
    cases h
    rfl

/-- Whether or not the command could be queued, the client goes on with the session it has. -/
theorem sent_move {before : Shared E.Run} {c : Command} (sent lost : Result)
    (h : Move before (s.shared.send c)) :
    Move before (match s.send c with
      | some s => (sent, s)
      | none => (lost, s)).2.shared := by
  rw [← shared_send] at h
  cases hs : s.send c <;> simpa [hs] using h

theorem live_of_ensureLive {session : Session} {u : Unit} (h : session.ensureLive = .ok u) :
    session.runState ≠ .terminated := by
  intro hs
  simp [Session.ensureLive, hs] at h

theorem resume_move (s : System E) (control : Control) (action : Resume) :
    Move s.shared (s.resume control action).2.shared := by
  unfold resume
  split
  · exact .stay s.shared
  · split
    · next hs =>
      exact sent_move _ _ (.leaveStop s.shared .running action hs (.inl rfl))
    · exact .stay s.shared

theorem execute_move (s : System E) (source : Source) :
    Move s.shared (s.execute source).2.shared := by
  unfold execute
  split
  · exact .stay s.shared
  · next hl =>
    split
    · exact .stay s.shared
    · next hf =>
      by_cases ha : s.alive = true
      · simp only [send, if_pos ha]
        exact .execute s.shared source (live_of_ensureLive hl) (Bool.eq_false_iff.mpr hf) ha
      · simp only [send, if_neg ha]
        exact .stay s.shared

theorem requestBreak_move (s : System E) : Move s.shared s.requestBreak.2.shared := by
  unfold requestBreak
  split
  · exact .stay s.shared
  · split
    · exact .stay s.shared
    · exact .stay s.shared

theorem requestAbort_move (s : System E) : Move s.shared s.requestAbort.2.shared := by
  unfold requestAbort
  split
  · exact .stay s.shared
  · split
    · next hs =>
      exact sent_move _ _ (.leaveStop s.shared .aborting .abort hs (.inr rfl))
    · split
      · next h => exact .askAbort s.shared h.1 h.2
      · exact .stay s.shared

theorem leave_move (s : System E) : Move s.shared s.leave.shared := by
  have hm := Move.leave s.shared
  unfold leave
  by_cases hs : s.session.runState = .stopped
  · have hsend := shared_send s (.resume .abort)
    rw [if_pos (show s.shared.session.runState = .stopped from hs), ← hsend] at hm
    simp only [hs, ↓reduceIte]
    exact hm
  · rw [if_neg (show s.shared.session.runState ≠ .stopped from hs)] at hm
    simp only [hs, ↓reduceIte]
    split
    · exact hm
    · exact hm

theorem atOnce_move (s : System E) (operation : Operation) :
    Move s.shared (s.atOnce operation).2.shared := by
  cases operation with
  | execute source => exact execute_move s source
  | «continue» => exact resume_move s .continue .continue
  | stepOver => exact resume_move s .stepOver .stepOver
  | stepIn => exact resume_move s .stepIn .stepIn
  | stepOut => exact resume_move s .stepOut .stepOut
  | «break» => exact requestBreak_move s
  | abort => exact requestAbort_move s
  | _ => exact .stay s.shared

theorem enter_move (s : System E) (call : Nat) (operation : Operation) :
    Move s.shared (s.enter call operation).shared := by
  unfold enter
  split
  · rw [shared_setPhase]
    split
    · exact .stay s.shared
    · exact leave_move s
  · split
    · exact .stay s.shared
    · split
      · split
        · exact .stay s.shared
        · exact .stay s.shared
        · exact .stay s.shared
      · exact leave_move s
      · exact atOnce_move s _

theorem recheck_move (s : System E) (call : Nat) : Move s.shared (s.recheck call).shared := by
  unfold recheck
  split
  · exact .stay s.shared
  · split
    · exact .stay s.shared
    · exact .stay s.shared

/-- Clients that are about to tell the thread to end have left the session before. -/
structure Departing (s : System E) : Prop where
  dead : s.poisoned = true → s.alive = false
  left : ∀ c ∈ s.calls, c.phase = .leaving → s.alive = true → s.session.runState = .terminated

theorem advance_move (hd : s.Departing) {call : Nat} (h : s.advance call = some t) :
    Move s.shared t.shared := by
  unfold advance at h
  split at h
  · cases h
  · next c hc =>
    split at h
    · cases h
      exact enter_move s call c.operation
    · cases h
      exact recheck_move s call
    · split at h
      · next r _ =>
        by_cases ha : s.alive = true
        · simp only [send, if_pos ha] at h
          cases h
          exact .ask s.shared call r ha
        · simp only [send, if_neg ha] at h
          cases h
          exact .stay s.shared
      · cases h
    · cases h
    · cases h
      exact .stay s.shared
    · cases h
      exact .stay s.shared
    · next hp =>
      split at h
      · cases h
        exact .stay s.shared
      · cases h
        rw [shared_setPhase, shared_send]
        by_cases ha : s.alive = true
        · have hl := hd.left c (List.mem_of_getElem? hc) hp ha
          simpa [Shared.send, shared, ha] using Move.shutDown s.shared ha hl
        · simpa [Shared.send, shared, ha] using Move.stay s.shared
    · split at h
      · cases h
        exact .stay s.shared
      · cases h
    · cases h

theorem giveUp_move {call : Nat} (h : s.giveUp call = some t) : Move s.shared t.shared := by
  unfold giveUp at h
  split at h
  · cases h
  · split at h
    · split at h
      · cases h
        exact .stay s.shared
      · cases h
        exact .stay s.shared
    · cases h

/-- Each step of an interleaving is a move. -/
theorem step_move (hd : s.Departing) {a : Action} (h : s.step a = some t) :
    Move s.shared t.shared := by
  cases a with
  | begin operation cancelled =>
    cases h
    exact .stay s.shared
  | cancel call =>
    cases h
    exact .stay s.shared
  | advance call => exact advance_move hd h
  | giveUp call => exact giveUp_move h
  | receive reception =>
    obtain ⟨session, hr, rfl⟩ := Option.map_eq_some_iff.mp h
    exact .receive s.shared reception hr
  | work =>
    obtain ⟨⟨u, ms⟩, hw, rfl⟩ := Option.map_eq_some_iff.mp h
    exact work_move hw

end System
end Stepwise
