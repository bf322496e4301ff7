import Stepwise.Proofs.Session.Assigning
import Stepwise.Proofs.Session.Holding
import Stepwise.Proofs.Session.Passing

namespace Stepwise

section

variable {s t : Session} {e : Script.State}

theorem SessionM.onRegistry_idle {α : Type} {f : Registry → EngineM Script.State (α × Registry)}
    (hf : Script.Steady (f s.registry)) :
    (onRegistry f).Ends s e fun _ t _ => t.handles = s.handles ∧ t.runState = s.runState := by
  obtain ⟨⟨a, registry⟩, u, hr, hx⟩ := hf e
  exact Ends.get_bind (.lift_bind hr (.set_bind (.pure ⟨rfl, rfl⟩)))

theorem SessionM.ensureStopped_idle {α : Type} (hs : s.runState ≠ .stopped)
    (f : Unit → SessionM Script.State α) :
    (read Session.ensureStopped >>= f).Ends s e fun r t _ =>
      (∀ a, r ≠ .ok a) ∧ t.handles = s.handles ∧ t.runState = s.runState := by
  obtain ⟨x, hx⟩ : ∃ x, s.ensureStopped = .error x := by
    unfold Session.ensureStopped
    split
    · exact absurd (by assumption) hs
    · exact ⟨_, rfl⟩
    · exact ⟨_, rfl⟩
  exact Ends.read_error hx ⟨nofun, rfl, rfl⟩

/-- Without a halt a request leaves the handles alone. -/
theorem Request.serve_idle (hs : s.runState ≠ .stopped) (r : Request) (home : Home) :
    SessionM.Ends (r.serve Script.context home) s e fun _ t _ =>
      t.handles = s.handles ∧ t.runState = s.runState := by
  cases r with
  | setLineBreakpoints path requests =>
    rw [serve]
    exact (SessionM.onRegistry_idle (.setLine home path requests s.registry)).map
      (fun _ _ _ h => h) fun _ _ _ h => h
  | setCommandBreakpoints requests =>
    rw [serve]
    exact (SessionM.onRegistry_idle (.setCommands requests s.registry)).map
      (fun _ _ _ h => h) fun _ _ _ h => h
  | removeAllBreakpoints =>
    rw [serve]
    refine SessionM.onRegistry_idle ?_
    rw [map_eq_pure_bind]
    exact (Script.Steady.removeAll s.registry).bind fun _ => .pure _
  | expand h =>
    rw [serve, SessionM.expand]
    exact (SessionM.ensureStopped_idle hs _).map (fun _ _ _ h => h.2) fun _ _ _ h => h.2
  | setVariable h name expression =>
    rw [serve]
    have hend : SessionM.Ends (SessionM.setVariable Script.context h name expression) s e
        fun _ t _ => t.handles = s.handles ∧ t.runState = s.runState :=
      (SessionM.ensureStopped_idle hs _).bind (fun a _ _ h => absurd rfl (h.1 a)) fun _ _ _ h => h.2
    exact hend.map (fun _ _ _ h => h) fun _ _ _ h => h
  | evaluate expression frame =>
    rw [serve, SessionM.evaluate]
    exact (SessionM.ensureStopped_idle hs _).map (fun _ _ _ h => h.2) fun _ _ _ h => h.2

/-- The script engine survives every halt. -/
theorem Session.halt_returns (cx : s.runState = .running ∨ s.runState = .stopped) (h : Halt) :
    (s.halt Script.context h).Returns e (true, s.hold h (e.frames.map Script.Frame.listed)) e := by
  unfold Session.halt
  rcases cx with hs | hs <;> rw [hs] <;>
    exact EngineM.Returns.bind (Script.observe_returns _) (.pure _ _)

end

namespace System

section

variable {E : Engine} {s t : System E}

/-- What a client finds out by its first look at the session, if that is an answer. -/
def looked? (s : System E) (r : Request) : Option Result :=
  if s.poisoned then some (.error .lockPoisoned)
  else
    match r.precheck s.session with
    | .error e => some (.error e)
    | .ok answer => answer.map .ok

/-- What the thread replies to a request. -/
def served (s : System E) (r : Request) : Reply :=
  if s.poisoned then .given (.error .lockPoisoned)
  else
    match ((r.serve E.context s.session.around.home).run.run s.session).run s.engine with
    | (some (result, _), _) => .given result
    | (none, _) => .dropped

/-- The request that a step answers, and the reply. -/
def answered? (s : System E) : Action → Option (Request × Reply)
  | .advance call =>
    match s.calls[call]? with
    | some { operation := .request r, phase := .entered, .. } =>
      (s.looked? r).map fun result => (r, .given result)
    | _ => none
  | .work =>
    match s.worker with
    | .serving _ _ r => some (r, s.served r)
    | _ => none
  | _ => none

/-- The answer is what the caller gets: at once, or when the caller that waits for the thread looks
for it. -/
theorem answered_cases {a : Action} {r : Request} {reply : Reply}
    (h : s.answered? a = some (r, reply)) (hs : s.step a = some t) :
    (∃ call c result, a = .advance call ∧ s.calls[call]? = some c ∧ c.operation = .request r ∧
      s.looked? r = some result ∧ reply = .given result ∧
      t = s.setPhase call (.returned result)) ∨
    ∃ post call, a = .work ∧ s.worker = .serving post call r ∧ reply = s.served r ∧
      t = s.serve post call r := by
  cases a with
  | advance call =>
    left
    simp only [answered?] at h
    split at h
    · next r' c a hc =>
      obtain ⟨result, hl, he⟩ := Option.map_eq_some_iff.mp h
      cases he
      refine ⟨call, _, result, rfl, hc, rfl, hl, rfl, ?_⟩
      simp only [step, advance, hc, enter, Option.some.injEq] at hs
      rw [← hs]
      unfold looked? at hl
      split at hl
      · next hp =>
        cases hl
        rw [if_pos hp]
      · next hp =>
        rw [if_neg hp]
        split at hl
        · next hx =>
          cases hl
          rw [hx]
        · next answer hx =>
          obtain ⟨answer, rfl, rfl⟩ := Option.map_eq_some_iff.mp hl
          rw [hx]
    · cases h
  | work =>
    right
    simp only [answered?] at h
    split at h
    · next post call r' hw =>
      cases h
      simp only [step, work, hw, Option.map_some, Option.some.injEq] at hs
      exact ⟨post, call, rfl, hw, rfl, hs.symm⟩
    · cases h
  | _ => cases h

/-- A request that does not take the thread down is answered. -/
theorem serve_of_run {r : Request} {result : Result} {session : Session} {engine : E.State}
    (hp : s.poisoned = false)
    (h : ((r.serve E.context s.session.around.home).run.run s.session).run s.engine =
      (some (result, session), engine)) (post : Post E.Run) (call : Nat) :
    s.served r = .given result ∧
      s.serve post call r =
        ({ s with session, engine, worker := .taking post } : System E).reply call
          (.given result) := by
  unfold served serve
  rw [if_neg (by simp [hp]), if_neg (by simp [hp]), h]
  exact ⟨rfl, rfl⟩

end

variable {catalog : Script.Catalog} {s t : System (scriptEngine catalog)}

/-- The thread sits in the halt that the session is stopped in, and all that is shown of the halt
is what the engine has. -/
structure InOrder (s : System (scriptEngine catalog)) : Prop where
  numbered : s.session.handles.Numbered
  halted : s.session.runState = .stopped → s.worker.isHalted = true
  orderly : s.session.runState = .stopped → s.session.Orderly s.engine

/-- What is known of the states that a session gets into. -/
structure Sound (s : System (scriptEngine catalog)) : Prop where
  departing : s.Departing
  closed : s.shared.Closed
  attended : s.shared.Attended

theorem Sound.of_reaches {around : Surroundings} {engine : Script.State} {interrupts : Interrupts}
    (h : Reaches (opened around engine interrupts) s) : s.Sound :=
  ⟨departing_reaches h, closed_reaches h, attended_reaches h⟩

theorem Sound.unpoisoned (h : s.Sound) (hw : s.worker.isHalted = true) : s.poisoned = false := by
  have ha : s.alive = true := h.closed.working (Worker.isEnding_of_isHalted hw)
  cases hp : s.poisoned with
  | false => rfl
  | true =>
    have hd := h.departing.dead hp
    rw [ha] at hd
    cases hd

/-- What one step of a halt does. -/
inductive HaltStep (s t : System (scriptEngine catalog)) (a : Action) : Prop
  | answer {r : Request} {result : Result} (answered : s.answered? a = some (r, .given result))
    (answers : s.session.Answers s.engine r result t.session t.engine)
    (halted : t.worker.isHalted = true)
  | quiet (unanswered : s.answered? a = none) (passes : s.session.Passes t.session)
    (engine : t.engine = s.engine) (halted : t.session.runState = .stopped →
      t.worker.isHalted = true)

theorem serve_haltStep (ho : s.InOrder) (hs : s.Sound) (hr : s.session.runState = .stopped)
    {post : Post (scriptEngine catalog).Run} {call : Nat} {r : Request}
    (hw : s.worker = .serving post call r) : HaltStep s (s.serve post call r) .work := by
  have hh := ho.halted hr
  have hp := hs.unpoisoned hh
  obtain ⟨result, session, engine, hrun, hans⟩ :=
    r.serve_answers (ho.orderly hr) hr s.session.around.home
  obtain ⟨hserved, hserve⟩ := serve_of_run hp hrun post call
  rw [hserve]
  refine .answer (by simp [answered?, hw, hserved]) hans ?_
  rw [hw] at hh
  exact hh

/-- Nothing that leaves the halt is queued, and the other commands leave the thread in it. -/
theorem take_haltStep (ho : s.InOrder) (hs : s.Sound) (hr : s.session.runState = .stopped)
    {post : Post (scriptEngine catalog).Run} (hw : s.worker = .taking post)
    (h : s.step .work = some t) : HaltStep s t .work := by
  have hpost : post.isHalted = true := by simpa [hw, Worker.isHalted] using ho.halted hr
  have hpass : s.session.Passes t.session := by
    refine (step_move hs.departing h).passes ?_ ?_ <;> intros <;>
      simp_all [shared]
  have hnone : s.answered? .work = none := by simp [answered?, hw]
  cases post with
  | idle | safePoint => cases hpost
  | halted run execution =>
    simp only [step, work, hw] at h
    cases hc : s.commands with
    | nil => simp [hc] at h
    | cons c rest =>
      have hl : c.leavesHalt = false :=
        hs.attended.not_leaving hr (show c ∈ s.commands from hc ▸ List.mem_cons_self)
      rw [hc] at h
      obtain rfl := Option.some.inj h
      cases c with
      | resume | shutdown => cases hl
      | execute source other =>
        exact .quiet hnone hpass rfl fun _ => by
          simp [take, setExecution, Worker.isHalted, Post.isHalted]
      | serve call request =>
        refine .quiet hnone hpass ?_ fun _ => ?_
        · simp only [take]
          split <;> rfl
        · simp only [take]
          split <;> simp [reply, Worker.isHalted, Post.isHalted]

theorem client_haltStep (ho : s.InOrder) (hs : s.Sound) (hr : s.session.runState = .stopped)
    {a : Action} (ha : a ≠ .work) (h : s.step a = some t) : HaltStep s t a := by
  obtain ⟨he, hw⟩ := Prod.mk.injEq .. ▸ thread_step ha h
  cases hans : s.answered? a with
  | none =>
    refine .quiet hans ?_ he fun _ => hw ▸ ho.halted hr
    exact (step_move hs.departing h).passes (fun _ _ _ _ => hw) fun _ _ _ _ => hw
  | some answer =>
    rcases answered_cases hans h with
      ⟨call, c, result, rfl, _, _, hl, hreply, rfl⟩ | ⟨_, _, rfl, _⟩
    · obtain ⟨r, reply⟩ := answer
      obtain rfl : reply = .given result := hreply
      refine .answer hans ?_ (ho.halted hr)
      obtain ⟨hok, herror⟩ := Session.precheck_answers (ho.orderly hr) hr r
      unfold looked? at hl
      rw [if_neg (by simp [hs.unpoisoned (ho.halted hr)])] at hl
      split at hl
      · next hx =>
        cases hl
        exact herror _ hx
      · next hx =>
        obtain ⟨answer, rfl, rfl⟩ := Option.map_eq_some_iff.mp hl
        exact hok _ hx
    · exact absurd rfl ha

/-- Every step of a halt answers a request or changes nothing that can be listed. -/
theorem haltStep (ho : s.InOrder) (hs : s.Sound) (hr : s.session.runState = .stopped)
    {a : Action} (h : s.step a = some t) : HaltStep s t a := by
  cases hw : s.worker with
  | taking post =>
    by_cases ha : a = .work
    · subst ha
      exact take_haltStep ho hs hr hw h
    · exact client_haltStep ho hs hr ha h
  | serving post call r =>
    by_cases ha : a = .work
    · subst ha
      obtain rfl : s.serve post call r = t := by simpa [step, work, hw] using h
      exact serve_haltStep ho hs hr hw
    · exact client_haltStep ho hs hr ha h
  | running | halting | completing | exiting | exited =>
    have hh := ho.halted hr
    rw [hw] at hh
    cases hh

theorem InOrder.of_haltStep (ho : s.InOrder) (hr : s.session.runState = .stopped) {a : Action}
    (h : HaltStep s t a) : t.InOrder := by
  cases h with
  | answer _ answers halted =>
    have hk := answers.keeps
    exact ⟨hk.orderly.numbered, fun _ => halted, fun _ => hk.orderly⟩
  | quiet _ passes engine halted =>
    refine ⟨?_, halted, fun hs => ?_⟩
    · rcases passes.handles with hh | hh <;> rw [hh]
      · exact ho.numbered
      · exact ho.numbered.reset
    · obtain ⟨_, ha, hf, hh⟩ := passes.halt hs
      obtain ⟨hn, hc, hframes, hd⟩ := ho.orderly hr
      exact ⟨hh ▸ hn, by rw [ha, hh, engine]; exact hc, by rw [hf, hh]; exact hframes,
        by rw [hf, hh, engine]; exact hd⟩

/-- Outside a halt a request is served without regard to it. -/
theorem InOrder.serve_idle (ho : s.InOrder) (hr : s.session.runState ≠ .stopped)
    (post : Post (scriptEngine catalog).Run) (call : Nat) (r : Request) :
    (s.serve post call r).InOrder := by
  cases hp : s.poisoned with
  | true =>
    have hs : (s.serve post call r).session = s.session := by
      unfold serve
      rw [if_pos hp]
      rfl
    exact ⟨hs ▸ ho.numbered, fun h => absurd (hs ▸ h) hr, fun h => absurd (hs ▸ h) hr⟩
  | false =>
    obtain ⟨result, session, engine, hrun, hh, hst⟩ := r.serve_idle (e := s.engine) hr
      s.session.around.home
    rw [(serve_of_run hp hrun post call).2]
    exact ⟨hh ▸ ho.numbered, fun h => absurd (hst ▸ h) hr, fun h => absurd (hst ▸ h) hr⟩

/-- A session that is not about to end holds the engine. -/
theorem tellHalt_of_live (hr : s.session.runState = .running ∨ s.session.runState = .stopped)
    (h : Halt) (k : Resume → (scriptEngine catalog).Run) (execution : Nat) :
    s.tellHalt h k execution = { s with
      session := s.session.hold h (s.engine.frames.map Script.Frame.listed)
      worker := .taking (.halted k execution) } := by
  unfold tellHalt
  rw [show (s.session.halt (scriptEngine catalog).context h).run s.engine = _ from
    Session.halt_returns hr h]
  rfl

theorem InOrder.tellHalt (ho : s.InOrder) (h : Halt) (k : Resume → (scriptEngine catalog).Run)
    (execution : Nat) : (s.tellHalt h k execution).InOrder := by
  by_cases hr : s.session.runState = .running ∨ s.session.runState = .stopped
  · rw [tellHalt_of_live hr h k execution]
    have hord := Session.hold_orderly ho.numbered h s.engine
    exact ⟨hord.numbered, fun _ => rfl, fun _ => hord⟩
  · have hr' : s.session.runState = .aborting ∨ s.session.runState = .terminated := by
      cases hs : s.session.runState <;> simp_all
    have ht : s.tellHalt h k execution =
        { s with worker := .running (k .abort) execution false } := by
      unfold System.tellHalt
      rw [show (s.session.halt (scriptEngine catalog).context h).run s.engine = _ from
        halt_refused hr' h]
      rfl
    rw [ht]
    exact ⟨ho.numbered, fun h => absurd (.inr h) hr, fun h => absurd (.inr h) hr⟩

theorem InOrder.step (ho : s.InOrder) (hs : s.Sound) {a : Action} (h : s.step a = some t) :
    t.InOrder := by
  by_cases hr : s.session.runState = .stopped
  · exact ho.of_haltStep hr (haltStep ho hs hr h)
  · have away : s.session.Passes t.session → t.InOrder := by
      intro hp
      refine ⟨?_, fun h => absurd (hp.halt h).1 hr, fun h => absurd (hp.halt h).1 hr⟩
      rcases hp.handles with hh | hh <;> rw [hh]
      · exact ho.numbered
      · exact ho.numbered.reset
    have hm := step_move hs.departing h
    by_cases ha : a = .work
    · subst ha
      cases hw : s.worker with
      | serving post call r =>
        obtain rfl : s.serve post call r = t := by simpa [System.step, work, hw] using h
        exact ho.serve_idle hr post call r
      | halting halt k execution =>
        obtain rfl : s.tellHalt halt k execution = t := by simpa [System.step, work, hw] using h
        exact ho.tellHalt halt k execution
      | taking | running | completing | exiting | exited =>
        refine away (hm.passes ?_ ?_) <;> intros <;> simp_all [shared]
    · obtain ⟨_, hw⟩ := Prod.mk.injEq .. ▸ thread_step ha h
      exact away (hm.passes (fun _ _ _ _ => hw) fun _ _ _ _ => hw)

theorem inOrder_reaches {around : Surroundings} {engine : Script.State} {interrupts : Interrupts}
    (h : Reaches (opened around engine interrupts) s) : s.InOrder := by
  induction h with
  | refl => exact ⟨.first, nofun, nofun⟩
  | step a hr hs ih => exact ih.step (.of_reaches hr) hs

end System
end Stepwise
