import Stepwise.Proofs.Session.Steps

namespace Stepwise

variable {ρ : Type} {E : Engine}

namespace Move

variable {s t : Shared ρ}

theorem alive (m : Move s t) (h : t.alive = true) : s.alive = true := by
  cases m <;> first | exact h | assumption | skip
  case leaveStop => simpa using h
  case leave =>
    simp only [Shared.terminate] at h
    split at h
    · simpa using h
    · exact h
  all_goals cases h

theorem terminated (m : Move s t) (h : s.session.runState = .terminated) :
    t.session.runState = .terminated := by
  cases m <;> first | exact h | skip
  case receive reception session received => exact (Session.runState_receive received).trans h
  case leaveStop stopped _ =>
    rw [h] at stopped
    cases stopped
  case execute live _ _ => exact absurd h live
  case askAbort running _ =>
    rw [h] at running
    cases running
  case leave => exact Session.runState_terminate _
  case serve same => exact same.runState.trans h
  case halt accepted =>
    rw [h] at accepted
    rcases accepted with ha | ha <;> cases ha
  case complete outcome _ _ | completeLast outcome _ _ =>
    rw [Session.complete_of_terminated h]
    exact h
  case exit crashed _ => exact Session.runState_exit _ crashed

theorem dead (m : Move s t) (h : s.poisoned = true → s.alive = false) (ht : t.poisoned = true) :
    t.alive = false := by
  cases m <;> first | exact h ht | rfl | skip
  case leaveStop => simpa using h (by simpa using ht)
  case leave =>
    simp only [Shared.terminate] at ht ⊢
    split at ht
    · next hs => simpa [hs] using h (by simpa using ht)
    · next hs => simpa [hs] using h ht

end Move

/-- A call that is about to tell the thread to end has been about to do so before. -/
def NoNewLeaver (before after : List Call) : Prop :=
  ∀ d ∈ after, d.phase = .leaving → ∃ c ∈ before, c.phase = .leaving

namespace NoNewLeaver

theorem refl (calls : List Call) : NoNewLeaver calls calls :=
  fun d hd hp => ⟨d, hd, hp⟩

theorem trans {a b c : List Call} (h : NoNewLeaver a b) (h' : NoNewLeaver b c) :
    NoNewLeaver a c := by
  intro d hd hp
  obtain ⟨e, he, hpe⟩ := h' d hd hp
  exact h e he hpe

theorem append {calls : List Call} {c : Call} (h : c.phase ≠ .leaving) :
    NoNewLeaver calls (calls ++ [c]) := by
  intro d hd hp
  rcases List.mem_append.mp hd with hd | hd
  · exact ⟨d, hd, hp⟩
  · rw [List.mem_singleton.mp hd] at hp
    exact absurd hp h

theorem modify {calls : List Call} {i : Nat} {f : Call → Call}
    (hf : ∀ c, (f c).phase = .leaving → c.phase = .leaving) :
    NoNewLeaver calls (calls.modify i f) := by
  intro d hd hp
  obtain ⟨j, hj⟩ := List.mem_iff_getElem?.mp hd
  rw [List.getElem?_modify] at hj
  obtain ⟨c, hc, he⟩ := Option.map_eq_some_iff.mp hj
  refine ⟨c, List.mem_of_getElem? hc, ?_⟩
  split at he
  · exact hf c (he ▸ hp)
  · exact he ▸ hp

end NoNewLeaver

namespace System

variable {s t : System E}

theorem setPhase_noNewLeaver (s : System E) (call : Nat) {phase : Phase} (h : phase ≠ .leaving) :
    NoNewLeaver s.calls (s.setPhase call phase).calls :=
  .modify fun _ hp => absurd hp h

theorem reply_noNewLeaver (s : System E) (call : Nat) (r : Reply) :
    NoNewLeaver s.calls (s.reply call r).calls := by
  apply NoNewLeaver.modify
  intro c hp
  split at hp
  · cases hp
  · exact hp

theorem discard_noNewLeaver (s : System E) (cs : List Command) :
    NoNewLeaver s.calls (s.discard cs).calls := by
  induction cs generalizing s with
  | nil => exact .refl _
  | cons c rest ih =>
    cases c with
    | serve call request => exact (reply_noNewLeaver s call .dropped).trans (ih _)
    | execute source execution => exact ih _
    | resume action => exact ih _
    | shutdown => exact ih _

theorem crash_noNewLeaver (s : System E) (execution : Option Nat) (poisoned : Bool) :
    NoNewLeaver s.calls (s.crash execution poisoned).calls := by
  unfold crash
  cases execution with
  | none => exact discard_noNewLeaver _ _
  | some e => exact discard_noNewLeaver _ _

theorem calls_send (s : System E) (c : Command) : ((s.send c).getD s).calls = s.calls := by
  unfold send
  split <;> rfl

theorem calls_sent {before : List Call} {s : System E} {c : Command} (sent lost : Result)
    (h : s.calls = before) :
    (match s.send c with
      | some s => (sent, s)
      | none => (lost, s)).2.calls = before := by
  rw [← h, ← calls_send s c]
  cases s.send c <;> rfl

theorem calls_resume (s : System E) (control : Control) (action : Resume) :
    (s.resume control action).2.calls = s.calls := by
  unfold resume
  split
  · rfl
  · split
    · exact calls_sent _ _ rfl
    · rfl

theorem calls_execute (s : System E) (source : Source) :
    (s.execute source).2.calls = s.calls := by
  unfold execute
  split
  · rfl
  · split
    · rfl
    · by_cases ha : s.alive = true
      · simp only [send, if_pos ha]
      · simp only [send, if_neg ha]

theorem calls_requestAbort (s : System E) : s.requestAbort.2.calls = s.calls := by
  unfold requestAbort
  split
  · rfl
  · split
    · exact calls_sent _ _ rfl
    · split <;> rfl

theorem calls_requestBreak (s : System E) : s.requestBreak.2.calls = s.calls := by
  unfold requestBreak
  split
  · rfl
  · split <;> rfl

theorem calls_atOnce (s : System E) (operation : Operation) :
    (s.atOnce operation).2.calls = s.calls := by
  cases operation with
  | execute source => exact calls_execute s source
  | «continue» => exact calls_resume s .continue .continue
  | stepOver => exact calls_resume s .stepOver .stepOver
  | stepIn => exact calls_resume s .stepIn .stepIn
  | stepOut => exact calls_resume s .stepOut .stepOut
  | «break» => exact calls_requestBreak s
  | abort => exact calls_requestAbort s
  | _ => rfl

theorem close_noNewLeaver (s : System E) (crashed : Bool) :
    NoNewLeaver s.calls (s.close crashed).calls :=
  discard_noNewLeaver s s.commands

theorem take_noNewLeaver (s : System E) (post : Post E.Run) (c : Command) :
    NoNewLeaver s.calls (s.take post c).calls := by
  cases c with
  | serve call request =>
    simp only [take]
    split
    · exact reply_noNewLeaver s call .dropped
    · exact .refl _
  | execute source execution => cases post <;> exact .refl _
  | resume action => cases post <;> exact .refl _
  | shutdown =>
    cases post with
    | idle => exact close_noNewLeaver s false
    | safePoint run execution => exact .refl _
    | halted run execution => exact .refl _

theorem serve_noNewLeaver (s : System E) (post : Post E.Run) (call : Nat) (request : Request) :
    NoNewLeaver s.calls (s.serve post call request).calls := by
  unfold serve
  split
  · exact reply_noNewLeaver _ call _
  rcases ((request.serve E.context s.session.around.home).run.run s.session).run s.engine
    with ⟨_ | ⟨result, session⟩, engine⟩
  · exact (reply_noNewLeaver _ call .dropped).trans (crash_noNewLeaver _ _ true)
  · exact reply_noNewLeaver _ call _

theorem run_noNewLeaver {r : E.Run} {execution : Nat} {closing : Bool} {ms : Nat}
    (h : s.run r execution closing = some (t, ms)) : NoNewLeaver s.calls t.calls := by
  unfold run at h
  rcases hn : E.next r s.engine s.interrupts with ⟨signal, engine, interrupts⟩
  rw [hn] at h
  cases signal with
  | safePoint r' => cases closing <;> cases h <;> exact .refl _
  | halted halt k => cases closing <;> cases h <;> exact .refl _
  | blocked r' => cases h
  | crashed =>
    cases h
    exact crash_noNewLeaver _ (some execution) false
  | paused | finished =>
    cases h
    exact .refl _

theorem tellHalt_noNewLeaver (s : System E) (h : Halt) (k : Resume → E.Run) (execution : Nat) :
    NoNewLeaver s.calls (s.tellHalt h k execution).calls := by
  unfold tellHalt
  rcases (s.session.halt E.context h).run s.engine with ⟨_ | ⟨accepted, session⟩, engine⟩
  · exact crash_noNewLeaver _ (some execution) true
  · exact .refl _

theorem tellEnd_noNewLeaver (s : System E) (outcome : Outcome) (execution : Nat)
    (closing : Bool) : NoNewLeaver s.calls (s.tellEnd outcome execution closing).calls := by
  cases closing with
  | false => exact .refl _
  | true => exact close_noNewLeaver (setExecution _ execution (.ended outcome)) false

theorem work_noNewLeaver {ms : Nat} (h : s.work = some (t, ms)) :
    NoNewLeaver s.calls t.calls := by
  unfold work at h
  split at h
  · next post _ =>
    split at h
    · cases h
      exact take_noNewLeaver _ post _
    · split at h
      · cases h
        exact .refl _
      · cases h
  · cases h
    exact serve_noNewLeaver s _ _ _
  · exact run_noNewLeaver h
  · cases h
    exact tellHalt_noNewLeaver s _ _ _
  · cases h
    exact tellEnd_noNewLeaver s _ _ _
  · cases h
    exact .refl _
  · cases h

/-- Who enters an operation will not tell the thread to end, unless the session has been left with
it or nothing can be left any more. -/
theorem enter_noNewLeaver (s : System E) (call : Nat) (operation : Operation) :
    NoNewLeaver s.calls (s.enter call operation).calls ∨ s.poisoned = true ∨
      (s.enter call operation).session.runState = .terminated := by
  unfold enter
  split
  · right
    by_cases hp : s.poisoned = true
    · exact .inl hp
    · right
      rw [if_neg hp]
      exact Session.runState_terminate _
  · split
    · exact .inl (setPhase_noNewLeaver s call (by simp))
    · split
      · split
        · exact .inl (setPhase_noNewLeaver s call (by simp))
        · exact .inl (setPhase_noNewLeaver s call (by simp))
        · exact .inl (setPhase_noNewLeaver s call (by simp))
      · right; right
        exact Session.runState_terminate _
      · left
        rw [← calls_atOnce s operation]
        exact setPhase_noNewLeaver (s.atOnce operation).2 call (by simp)

theorem recheck_noNewLeaver (s : System E) (call : Nat) :
    NoNewLeaver s.calls (s.recheck call).calls := by
  unfold recheck
  split
  · exact setPhase_noNewLeaver s call (by simp)
  · split
    · exact setPhase_noNewLeaver s call (by simp)
    · exact setPhase_noNewLeaver s call (by simp)

theorem advance_noNewLeaver {call : Nat} (h : s.advance call = some t) :
    NoNewLeaver s.calls t.calls ∨ s.poisoned = true ∨ t.session.runState = .terminated := by
  unfold advance at h
  split at h
  · cases h
  · next c hc =>
    split at h
    · cases h
      exact enter_noNewLeaver s call c.operation
    · cases h
      exact .inl (recheck_noNewLeaver s call)
    · split at h
      · next r _ =>
        left
        have hs := calls_send s (.serve call r)
        cases hq : s.send (.serve call r) with
        | none =>
          rw [hq] at h
          cases h
          exact setPhase_noNewLeaver s call (by simp)
        | some u =>
          rw [hq] at h hs
          cases h
          exact hs ▸ setPhase_noNewLeaver u call (by simp)
      · cases h
    · cases h
    · cases h
      exact .inl (setPhase_noNewLeaver s call (by simp))
    · cases h
      exact .inl (setPhase_noNewLeaver s call (by simp))
    · split at h
      · cases h
        exact .inl (setPhase_noNewLeaver s call (by simp))
      · cases h
        left
        have hs := setPhase_noNewLeaver (({ s with joined := true }.send .shutdown).getD
          { s with joined := true }) call (show Phase.joining ≠ .leaving by simp)
        rw [calls_send] at hs
        exact hs
    · split at h
      · cases h
        exact .inl (setPhase_noNewLeaver s call (by simp))
      · cases h
    · cases h

theorem giveUp_noNewLeaver {call : Nat} (h : s.giveUp call = some t) :
    NoNewLeaver s.calls t.calls := by
  unfold giveUp at h
  split at h
  · cases h
  · split at h
    · split at h
      · cases h
        exact setPhase_noNewLeaver s call (by simp)
      · cases h
        refine .trans (.modify ?_) (setPhase_noNewLeaver _ call (by simp))
        exact fun c hp => hp
    · cases h

theorem step_noNewLeaver {a : Action} (h : s.step a = some t) :
    NoNewLeaver s.calls t.calls ∨ s.poisoned = true ∨ t.session.runState = .terminated := by
  cases a with
  | begin operation cancelled =>
    cases h
    exact .inl (.append (by simp))
  | cancel call =>
    cases h
    exact .inl (.modify fun c hp => hp)
  | advance call => exact advance_noNewLeaver h
  | giveUp call => exact .inl (giveUp_noNewLeaver h)
  | receive reception =>
    obtain ⟨session, _, rfl⟩ := Option.map_eq_some_iff.mp h
    exact .inl (.refl _)
  | work =>
    obtain ⟨⟨u, ms⟩, hw, rfl⟩ := Option.map_eq_some_iff.mp h
    exact .inl (work_noNewLeaver hw)

theorem Departing.step (hd : s.Departing) {a : Action} (h : s.step a = some t) :
    t.Departing := by
  have hm : Move s.shared t.shared := step_move hd h
  refine ⟨fun hp => hm.dead hd.dead hp, ?_⟩
  intro d hd' hp ha
  have has : s.alive = true := hm.alive ha
  rcases step_noNewLeaver h with hn | hs | ht
  · obtain ⟨c, hc, hcp⟩ := hn d hd' hp
    exact hm.terminated (hd.left c hc hcp has)
  · -- Nothing could be left under a poisoned lock, but then the thread is gone.
    have hdead := hd.dead hs
    rw [hdead] at has
    cases has
  · exact ht

theorem departing_opened (around : Surroundings) (engine : E.State) (interrupts : Interrupts) :
    (opened around engine interrupts : System E).Departing := by
  constructor
  · intro h
    cases h
  · intro c hc
    cases hc

theorem departing_reaches {around : Surroundings} {engine : E.State} {interrupts : Interrupts}
    (h : Reaches (opened around engine interrupts) s) : s.Departing := by
  induction h with
  | refl => exact departing_opened around engine interrupts
  | step a _ hs ih => exact ih.step hs

/-- What every move keeps holds of every state of a session; what is known to hold of those states
may help to keep it. -/
theorem shared_reaches {around : Surroundings} {engine : E.State} {interrupts : Interrupts}
    {P : Shared E.Run → Prop} (h : Reaches (opened around engine interrupts) s)
    (first : P (opened around engine interrupts : System E).shared)
    (move : ∀ {u v : System E}, Reaches (opened around engine interrupts) u →
      Move u.shared v.shared → P u.shared → P v.shared) : P s.shared := by
  induction h with
  | refl => exact first
  | step a hr hs ih => exact move hr (step_move (departing_reaches hr) hs) ih

theorem Reaches.follow {r : System E} (h : Reaches r s) {actions : List Action}
    (hf : s.follow actions = some t) : Reaches r t := by
  induction actions generalizing s with
  | nil =>
    cases hf
    exact h
  | cons a rest ih =>
    obtain ⟨u, hu, hr⟩ := Option.bind_eq_some_iff.mp hf
    exact ih (h.step a hu) hr

theorem exists_reaches {actions : List Action} {p : System E → Bool}
    (h : (s.follow actions).any p = true) : ∃ t, Reaches s t ∧ p t = true := by
  cases hf : s.follow actions with
  | none =>
    rw [hf] at h
    cases h
  | some t =>
    rw [hf] at h
    exact ⟨t, (Reaches.refl s).follow hf, h⟩

end System
end Stepwise
