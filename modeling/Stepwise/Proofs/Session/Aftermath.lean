import Mathlib
import Stepwise.Proofs.Session.Conversation
import Stepwise.Rehearsal
import Stepwise.Script.Samples

namespace Stepwise

variable {ρ : Type} {E : Engine}

/-- The engine does something for the thread while that holds the session's lock. -/
def Worker.holdsLock : Worker ρ → Bool
  | .serving _ _ _ => true
  | .halting _ _ _ => true
  | _ => false

/-- The thread is gone. -/
def Worker.hasExited : Worker ρ → Bool
  | .exited => true
  | _ => false

theorem Worker.eq_exited {w : Worker ρ} (h : w.hasExited = true) : w = .exited := by
  cases w with
  | exited => rfl
  | _ => cases h

/-- The error of operations that are begun without a thread. -/
def SessionError.refusal (poisoned : Bool) : SessionError :=
  if poisoned then .lockPoisoned else .terminated

/-- What a call has returned. -/
def Call.answer? (c : Call) : Option Result :=
  match c.phase with
  | .returned result => some result
  | _ => none

theorem SessionError.isFatal_refusal (poisoned : Bool) :
    (refusal poisoned).isFatal = !poisoned := by
  cases poisoned <;> rfl

/-- How far an operation can have come that was begun without a thread. -/
def Phase.IsLate (poisoned : Bool) : Phase → Prop
  | .entered | .admitted | .leaving | .joining | .returned (.ok _) => True
  | .returned (.error e) => e = .refusal poisoned
  | .ready | .awaiting _ => False

theorem Phase.isLate_returned {poisoned : Bool} {result : Result} :
    (Phase.returned result).IsLate poisoned ↔
      ∀ e, result = .error e → e = .refusal poisoned := by
  cases result with
  | ok answer => exact ⟨nofun, fun _ => trivial⟩
  | error e => exact ⟨fun h _ he => Except.error.inj he ▸ h, fun h => h e rfl⟩

namespace Move

variable {s t : Shared ρ}

/-- Nothing brings the thread back, and nobody poisons the lock without it. -/
theorem gone (m : Move s t) (hc : s.Closed) (ha : s.alive = false) :
    t.alive = false ∧ t.poisoned = s.poisoned := by
  refine ⟨Bool.eq_false_iff.mpr fun ht => absurd (m.alive ht) (by simp [ha]), ?_⟩
  cases m with
  | leaveStop => simp
  | leave =>
    simp only [Shared.terminate]
    split <;> simp
  | crash poisoned working =>
    rw [hc.working working] at ha
    cases ha
  | _ => rfl

theorem exited (m : Move s t) (hw : s.worker = .exited) : t.worker = .exited := by
  cases m with
  | leaveStop => simpa using hw
  | leave =>
    simp only [Shared.terminate]
    split
    · simpa using hw
    · exact hw
  | crash poisoned working =>
    rw [hw] at working
    cases working
  | pick _ _ _ _ working | serve _ _ _ working | launch _ _ _ _ working | resume _ _ _ _ working
    | stop _ working | stopRun _ _ _ _ working | goOn _ _ working | run _ _ _ working
    | halt _ _ _ _ working | refuseHalt _ _ _ working | complete _ _ working
    | completeLast _ _ working =>
    rw [hw] at working
    cases working
  | exit => rfl
  | _ => exact hw

end Move

namespace System

variable {s t u w : System E}

theorem poisoned_close (s : System E) (crashed : Bool) : (s.close crashed).poisoned = s.poisoned :=
  congrArg Shared.poisoned (shared_close s crashed)

theorem poisoned_crash (s : System E) (execution : Option Nat) (poisoned : Bool) :
    (s.crash execution poisoned).poisoned = (s.poisoned || poisoned) :=
  congrArg Shared.poisoned (shared_crash s execution poisoned)

theorem poisoned_take (s : System E) (post : Post E.Run) (c : Command) :
    (s.take post c).poisoned = s.poisoned := by
  cases c with
  | serve call request =>
    simp only [take]
    split <;> rfl
  | execute | resume => cases post <;> rfl
  | shutdown =>
    cases post with
    | idle => exact poisoned_close s false
    | safePoint | halted => rfl

/-- The lock is poisoned by going down under it, and not otherwise. -/
theorem work_poisoned {ms : Nat} (h : s.work = some (t, ms)) :
    (t.poisoned = s.poisoned ∧ (s.worker.holdsLock = true → t.alive = s.alive)) ∨
      (t.poisoned = true ∧ s.worker.holdsLock = true) := by
  unfold work at h
  split at h
  · next post hw =>
    left
    rw [hw]
    split at h
    · cases h
      exact ⟨poisoned_take _ post _, nofun⟩
    · split at h
      · cases h
        exact ⟨rfl, nofun⟩
      · cases h
  · next post call request hw =>
    cases h
    rw [hw]
    unfold serve
    split
    · exact .inl ⟨rfl, fun _ => rfl⟩
    rcases ((request.serve E.context s.session.around.home).run.run s.session).run s.engine
      with ⟨_ | ⟨result, session⟩, engine⟩
    · exact .inr ⟨by rw [poisoned_crash, Bool.or_true], rfl⟩
    · exact .inl ⟨rfl, fun _ => rfl⟩
  · next r execution closing hw =>
    left
    rw [hw]
    refine ⟨?_, nofun⟩
    unfold run at h
    rcases hn : E.next r s.engine s.interrupts with ⟨signal, engine, interrupts⟩
    rw [hn] at h
    cases signal with
    | safePoint r' => cases closing <;> cases h <;> rfl
    | halted halt k => cases closing <;> cases h <;> rfl
    | blocked r' => cases h
    | crashed =>
      cases h
      rw [poisoned_crash, Bool.or_false]
    | paused | finished =>
      cases h
      rfl
  · next halt k execution hw =>
    cases h
    rw [hw]
    unfold tellHalt
    rcases (s.session.halt E.context halt).run s.engine with ⟨_ | ⟨accepted, session⟩, engine⟩
    · exact .inr ⟨by rw [poisoned_crash, Bool.or_true], rfl⟩
    · exact .inl ⟨rfl, fun _ => rfl⟩
  · next outcome execution closing hw =>
    cases h
    left
    rw [hw]
    refine ⟨?_, nofun⟩
    cases closing with
    | false => rfl
    | true => exact poisoned_close (setExecution _ execution (.ended outcome)) false
  · next hw =>
    cases h
    rw [hw]
    exact .inl ⟨rfl, nofun⟩
  · cases h

/-- In this step on the way from one state to another the thread stops taking commands. -/
structure Falls (first s t last : System E) : Prop where
  before : Reaches first s
  up : s.alive = true
  step : s.step .work = some t
  down : t.alive = false
  after : Reaches t last

/-- Clients do not take the thread down. -/
theorem alive_of_client (hd : s.Departing) {a : Action} (ha : a ≠ .work) (h : s.step a = some t)
    (hs : s.alive = true) : t.alive = true := by
  have hw : t.worker = s.worker := (Prod.mk.inj (thread_step ha h)).2
  have m := step_move hd h
  generalize hx : s.shared = x at m
  generalize hy : t.shared = y at m
  have hxa : x.alive = true := hx ▸ hs
  have hxy : y.worker = x.worker := by
    rw [← hx, ← hy]
    exact hw
  change t.shared.alive = true
  rw [hy]
  cases m with
  | leaveStop => simpa using hxa
  | leave =>
    simp only [Shared.terminate]
    split
    · simpa using hxa
    · exact hxa
  | crash poisoned working =>
    rw [← hxy] at working
    cases working
  | stop _ working | completeLast _ _ working =>
    rw [working] at hxy
    cases hxy
  | _ => exact hxa

section

variable {around : Surroundings} {engine : E.State} {interrupts : Interrupts}

theorem exists_falls (h : Reaches (opened around engine interrupts) u) (hu : u.alive = false) :
    ∃ s t, Falls (opened around engine interrupts) s t u := by
  induction h with
  | refl => cases hu
  | @step v u a hv hs ih =>
    cases ha : v.alive with
    | false =>
      obtain ⟨s, t, hf⟩ := ih ha
      exact ⟨s, t, { hf with after := hf.after.step a hs }⟩
    | true =>
      by_cases hw : a = .work
      · subst hw
        exact ⟨v, u, hv, ha, hs, hu, .refl u⟩
      · rw [alive_of_client (departing_reaches hv) hw hs ha] at hu
        cases hu

theorem Falls.reaches (hf : Falls (opened around engine interrupts) s t u)
    (h : Reaches t w) : Reaches (opened around engine interrupts) w := by
  have hr := hf.before.step .work hf.step
  induction h with
  | refl => exact hr
  | step a _ hs ih => exact ih.step a hs

/-- Whether the lock is poisoned is decided when the thread goes down. -/
theorem Falls.poisoned (hf : Falls (opened around engine interrupts) s t u) :
    u.poisoned = s.worker.holdsLock := by
  have hs : s.poisoned = false := by
    cases hp : s.poisoned with
    | false => rfl
    | true =>
      have hd := (departing_reaches hf.before).dead hp
      rw [hf.up] at hd
      cases hd
  have ht : t.poisoned = s.worker.holdsLock := by
    obtain ⟨⟨t, ms⟩, hw, rfl⟩ := Option.map_eq_some_iff.mp hf.step
    have hdown : t.alive = false := hf.down
    rcases work_poisoned hw with ⟨hp, hl⟩ | ⟨hp, hl⟩
    · have hn : s.worker.holdsLock ≠ true := by
        intro hh
        rw [hl hh, hf.up] at hdown
        cases hdown
      exact hp.trans (hs.trans (Bool.eq_false_iff.mpr hn).symm)
    · exact hp.trans hl.symm
  suffices u.alive = false ∧ u.poisoned = t.poisoned from this.2.trans ht
  have hr := hf.before.step .work hf.step
  have ha := hf.after
  induction ha with
  | refl => exact ⟨hf.down, rfl⟩
  | @step v x a hv hs ih =>
    obtain ⟨hd, hp⟩ := ih { hf with after := hv }
    have hrv := hf.reaches hv
    obtain ⟨hx, hq⟩ := (step_move (departing_reaches hrv) hs).gone (closed_reaches hrv) hd
    exact ⟨hx, hq.trans hp⟩

end

/-- The thread has gone, and the session has ended. -/
structure Gone (s : System E) : Prop where
  exited : s.worker = .exited
  terminated : s.session.runState = .terminated
  dead : s.alive = false

/-- The calls from a number on were begun without a thread. -/
def Late (first : Nat) (s : System E) : Prop :=
  ∀ call c, first ≤ call → s.calls[call]? = some c → c.phase.IsLate s.poisoned

theorem Gone.step (hd : s.Departing) (hc : s.shared.Closed) (hg : s.Gone) {a : Action}
    (h : s.step a = some t) : t.Gone ∧ t.poisoned = s.poisoned := by
  have m := step_move hd h
  obtain ⟨ha, hp⟩ := m.gone hc hg.dead
  exact ⟨⟨m.exited hg.exited, m.terminated hg.terminated, ha⟩, hp⟩

theorem Late.modify {first : Nat} (hl : s.Late first) (hp : t.poisoned = s.poisoned) {call : Nat}
    {f : Call → Call} (hc : t.calls = s.calls.modify call f)
    (hf : ∀ c, first ≤ call → s.calls[call]? = some c → (f c).phase.IsLate s.poisoned) :
    t.Late first := by
  intro i c hi hci
  rw [hc, List.getElem?_modify] at hci
  rw [hp]
  obtain ⟨d, hd, rfl⟩ := Option.map_eq_some_iff.mp hci
  split
  · next he =>
    subst he
    exact hf d hi hd
  · exact hl i d hi hd

/-- Without a thread, what is done at once succeeds or is told that the session has ended. -/
theorem Gone.atOnce (hg : s.Gone) (operation : Operation) :
    (∃ answer, (s.atOnce operation).1 = .ok answer) ∨
      (s.atOnce operation).1 = .error .terminated := by
  have hl : s.session.ensureLive = .error .terminated := by
    simp [Session.ensureLive, hg.terminated]
  have hs : s.session.ensureStopped = .error .terminated := by
    simp [Session.ensureStopped, hg.terminated]
  cases operation with
  | execute source => simp [System.atOnce, execute, hl]
  | «continue» | stepOver | stepIn | stepOut => simp [System.atOnce, resume, hl]
  | «break» => simp [System.atOnce, requestBreak, hl]
  | abort => simp [System.atOnce, requestAbort, hl]
  | stackFrames =>
    simp [System.atOnce, Session.stackFrames, hs, bind, Except.bind, Except.map]
  | scopes frame => simp [System.atOnce, Session.scopes, hs, bind, Except.bind, Except.map]
  | breakpoints | request | disconnect | drop => exact .inl ⟨_, rfl⟩

/-- So does the first look of a request. -/
theorem Gone.precheck (hg : s.Gone) (r : Request) :
    r.precheck s.session = .error .terminated ∨ r.precheck s.session = .ok none := by
  have hs : s.session.ensureStopped = .error .terminated := by
    simp [Session.ensureStopped, hg.terminated]
  cases r with
  | expand h =>
    simp [Request.precheck, Session.cachedVariables, hs, bind, Except.bind, Except.map]
  | setVariable | evaluate => simp [Request.precheck, hs, Except.map]
  | setLineBreakpoints | setCommandBreakpoints | removeAllBreakpoints => exact .inr rfl

theorem calls_leave (s : System E) : s.leave.calls = s.calls := by
  unfold leave send
  split
  · split <;> rfl
  · split <;> rfl

theorem Gone.enter (hg : s.Gone) (call : Nat) (operation : Operation) :
    ∃ (u : System E) (phase : Phase), s.enter call operation = u.setPhase call phase ∧
      u.calls = s.calls ∧ phase.IsLate s.poisoned := by
  unfold System.enter
  split
  · refine ⟨_, _, rfl, ?_, trivial⟩
    split
    · rfl
    · exact calls_leave s
  · split
    · next hp => exact ⟨_, _, rfl, rfl, by simp [Phase.IsLate, SessionError.refusal, hp]⟩
    · next hp =>
      have hr : SessionError.refusal s.poisoned = .terminated := by
        simp [SessionError.refusal, hp]
      split
      · next r _ =>
        rcases hg.precheck r with hx | hx <;> rw [hx]
        · exact ⟨_, _, rfl, rfl, hr.symm⟩
        · exact ⟨_, _, rfl, rfl, trivial⟩
      · exact ⟨_, _, rfl, calls_leave s, trivial⟩
      · refine ⟨_, _, rfl, calls_atOnce s operation, Phase.isLate_returned.mpr fun e he => ?_⟩
        rcases hg.atOnce operation with ⟨answer, hx⟩ | hx
        · cases hx.symm.trans he
        · cases hx.symm.trans he
          exact hr.symm

theorem Gone.recheck (hg : s.Gone) (call : Nat) :
    s.recheck call = s.setPhase call (.returned (.error (.refusal s.poisoned))) := by
  unfold System.recheck
  split
  · next hp => simp [SessionError.refusal, hp]
  · next hp =>
    simp [SessionError.refusal, hp, Session.ensureLive, hg.terminated]

/-- Without a thread the next step of an operation sets its phase, and an operation that was begun
without a thread stays one. -/
theorem Gone.advance (hg : s.Gone) {call : Nat} (h : s.advance call = some t) :
    ∃ phase, t.calls = s.calls.modify call (fun c => { c with phase }) ∧
      ((∀ c, s.calls[call]? = some c → c.phase.IsLate s.poisoned) →
        phase.IsLate s.poisoned) := by
  unfold System.advance at h
  split at h
  · cases h
  next c hc =>
  split at h
  · obtain ⟨u, phase, he, hu, hp⟩ := hg.enter call c.operation
    cases h
    rw [he]
    exact ⟨phase, congrArg _ hu, fun _ => hp⟩
  · cases h
    rw [hg.recheck call]
    exact ⟨_, rfl, fun _ => rfl⟩
  · next hphase =>
    -- Who is ready was begun before.
    have hn : ¬ ∀ c, s.calls[call]? = some c → c.phase.IsLate s.poisoned := by
      intro hall
      have hx := hall c hc
      rw [hphase] at hx
      exact hx
    split at h
    · next r _ =>
      simp only [send, hg.dead] at h
      cases h
      exact ⟨_, rfl, fun hall => absurd hall hn⟩
    · cases h
  · cases h
  · next result hphase =>
    cases h
    refine ⟨_, rfl, fun hall => ?_⟩
    have hx := hall c hc
    rw [hphase] at hx
    exact hx.elim
  · next hphase =>
    cases h
    refine ⟨_, rfl, fun hall => ?_⟩
    have hx := hall c hc
    rw [hphase] at hx
    exact hx.elim
  · split at h
    · cases h
      exact ⟨_, rfl, fun _ => trivial⟩
    · cases h
      refine ⟨.joining, ?_, fun _ => trivial⟩
      exact congrArg (List.modify · call _) (calls_send { s with joined := true } .shutdown)
  · split at h
    · cases h
      exact ⟨_, rfl, fun _ => trivial⟩
    · cases h
  · cases h

theorem Late.step {first : Nat} (hg : s.Gone) (hp : t.poisoned = s.poisoned) (hl : s.Late first)
    {a : Action} (h : s.step a = some t) : t.Late first := by
  cases a with
  | begin operation cancelled =>
    cases h
    intro i c hi hc
    simp only [begin] at hc
    rcases Nat.lt_or_ge i s.calls.length with hlt | hge
    · rw [List.getElem?_append_left hlt] at hc
      exact hl i c hi hc
    · rw [List.getElem?_append_right hge, List.getElem?_singleton] at hc
      split at hc
      · cases hc
        trivial
      · cases hc
  | cancel call =>
    cases h
    exact hl.modify rfl rfl fun c hf hc => hl call c hf hc
  | advance call =>
    obtain ⟨phase, hc, hphase⟩ := hg.advance h
    exact hl.modify hp hc fun _ hf _ => hphase fun c hc => hl call c hf hc
  | giveUp call =>
    simp only [System.step, giveUp] at h
    split at h
    · cases h
    next c hc =>
    split at h
    · next reply hphase =>
      -- Who waits for a reply was begun before.
      have hn : ¬ first ≤ call := by
        intro hf
        have hx := hl call c hf hc
        rw [hphase] at hx
        exact hx
      split at h
      · cases h
        exact hl.modify rfl rfl fun _ hf _ => absurd hf hn
      · cases h
        have hab := hl.modify (t := { s with
            calls := s.calls.modify call fun c => { c with abandoned := true } })
          rfl rfl fun _ hf _ => absurd hf hn
        exact hab.modify rfl rfl fun _ hf _ => absurd hf hn
    · cases h
  | receive reception =>
    obtain ⟨session, _, rfl⟩ := Option.map_eq_some_iff.mp h
    exact hl
  | work =>
    simp [System.step, work, hg.exited] at h

theorem terminated_of_exited {around : Surroundings} {engine : E.State} {interrupts : Interrupts}
    (h : Reaches (opened around engine interrupts) u) (hw : u.worker = .exited) :
    u.session.runState = .terminated := by
  refine shared_reaches (P := fun s => s.worker = .exited → s.session.runState = .terminated) h
    nofun (fun {v x} hv m ih hx => ?_) hw
  generalize v.shared = a at m ih
  generalize x.shared = b at m hx
  by_cases ha : a.worker = .exited
  · exact m.terminated (ih ha)
  cases m with
  | exit crashed => exact Session.runState_exit _ crashed
  | leaveStop => exact absurd (by simpa using hx) ha
  | leave =>
    simp only [Shared.terminate] at hx
    split at hx
    · exact absurd (by simpa using hx) ha
    · exact absurd hx ha
  | @run _ _ _ worker _ ran =>
    obtain rfl : worker = Worker.exited := hx
    cases ran.isEnding
  | pick | serve | crash | launch | resume | stop | stopRun | goOn | halt | refuseHalt | complete
    | completeLast => cases hx
  | _ => exact absurd hx ha

/-- What is left of a session whose thread has exited. -/
structure Aftermath (first u : System E) : Prop where
  terminated : u.session.runState = .terminated
  fell : ∃ s t, Falls first s t u
  /-- The lock is poisoned exactly if the thread went down under it. -/
  poisoned : ∀ s t, Falls first s t u → u.poisoned = s.worker.holdsLock
  /-- The session stays as it is, and so is whatever is begun from now on and fails. -/
  later : ∀ w, Reaches u w → w.session.runState = .terminated ∧ w.poisoned = u.poisoned ∧
    ∀ call c e, u.calls.length ≤ call → w.calls[call]? = some c →
      c.phase = .returned (.error e) →
        e = .refusal u.poisoned ∧ (e.isFatal = true ↔ u.poisoned = false)

/-- Once the thread has exited, the session has ended, and whatever fails from then on fails with an
error that is fatal, unless the thread went down while it held the session's lock. -/
theorem aftermath_of_exited {around : Surroundings} {engine : E.State} {interrupts : Interrupts}
    (h : Reaches (opened around engine interrupts) u) (hw : u.worker = .exited) :
    Aftermath (opened around engine interrupts) u := by
  have hc : u.shared.Closed := closed_reaches h
  have hd : u.alive = false := by
    simpa [shared, hw, Worker.isEnding] using hc.ending
  have ht : u.session.runState = .terminated := terminated_of_exited h hw
  refine ⟨ht, exists_falls h hd, fun s t hf => hf.poisoned, ?_⟩
  intro w hr
  have hall : w.Gone ∧ w.poisoned = u.poisoned ∧ w.Late u.calls.length ∧
      Reaches (opened around engine interrupts) w := by
    induction hr with
    | refl =>
      refine ⟨⟨hw, ht, hd⟩, rfl, ?_, h⟩
      intro call c hf hcall
      rw [List.getElem?_eq_none hf] at hcall
      cases hcall
    | step a _ hs ih =>
      obtain ⟨hg, hp, hl, hr⟩ := ih
      obtain ⟨hg', hp'⟩ := hg.step (departing_reaches hr) (closed_reaches hr) hs
      exact ⟨hg', hp'.trans hp, hl.step hg hp' hs, hr.step a hs⟩
  obtain ⟨hg, hp, hl, _⟩ := hall
  refine ⟨hg.terminated, hp, ?_⟩
  intro call c e hf hcall hphase
  have he := hl call c hf hcall
  rw [hphase, hp] at he
  obtain rfl : e = .refusal u.poisoned := he
  exact ⟨rfl, by rw [SessionError.isFatal_refusal, Bool.not_eq_true']⟩

/-- A script takes the thread down, and the session cannot be resumed after that. -/
theorem aftermath_of_crash :
    let crash : Script.Program := { body := [.command 1 Script.crashCommand] }
    ∃ u w : System (scriptEngine { inlines := [("crash", crash)] }),
      Reaches (opened { home := .at ⟨"/"⟩ } (Script.State.initial [] []) {}) u ∧ u.worker = .exited ∧
        Aftermath (opened { home := .at ⟨"/"⟩ } (Script.State.initial [] []) {}) u ∧
        Reaches u w ∧ (w.calls[1]?).map Call.answer? = some (some (.error .terminated)) := by
  intro crash
  have hf : ((opened { home := .at ⟨"/"⟩ } (Script.State.initial [] []) {} :
      System (scriptEngine { inlines := [("crash", crash)] })).follow
      [.begin (.execute (.inline "crash")) false, .advance 0, .work, .work, .work, .work,
        .work]).any
      (fun u => u.worker.hasExited && (u.follow [.begin .continue false, .advance 1]).any
        fun w => (w.calls[1]?).map Call.answer? == some (some (.error .terminated))) = true := by
    cbv
  obtain ⟨u, hu, hp⟩ := exists_reaches hf
  obtain ⟨he, hl⟩ := Bool.and_eq_true_iff.mp hp
  obtain ⟨w, hw, hq⟩ := exists_reaches hl
  exact ⟨u, w, hu, u.worker.eq_exited he, aftermath_of_exited hu (u.worker.eq_exited he), hw,
    beq_iff_eq.mp hq⟩

/-- A request takes the thread down; the session has ended, but who asks for more is told of the
lock instead, with an error that is not fatal. -/
theorem fatal_ending_not_told :
    let plan : Rehearsal.Plan :=
      { catalog := { inlines := [("count", .counting 1)] }, faults := { crashOn := some "boom" } }
    ∃ u w : System (rehearsalEngine plan),
      Reaches (opened { home := .at ⟨"/"⟩ } ({ script := .initial [] [] } : Rehearsal.State)
        { breakRequested := true }) u ∧
      u.worker = .exited ∧ u.session.runState = .terminated ∧ u.calls.length = 2 ∧
      Reaches u w ∧ (w.calls[2]?).map Call.answer? = some (some (.error .lockPoisoned)) ∧
      SessionError.lockPoisoned.isFatal = false := by
  intro plan
  have hf : ((opened { home := .at ⟨"/"⟩ } ({ script := .initial [] [] } : Rehearsal.State)
      { breakRequested := true } : System (rehearsalEngine plan)).follow
      (breaking (.inline "count") ++ asking 1 (.evaluate "boom" 0) ++ [.work])).any
      (fun u => (u.worker.hasExited && u.session.runState == .terminated &&
        u.calls.length == 2) && (u.follow [.begin .continue false, .advance 2]).any
          fun w => (w.calls[2]?).map Call.answer? == some (some (.error .lockPoisoned))) =
      true := by
    cbv
  obtain ⟨u, hu, hp⟩ := exists_reaches hf
  obtain ⟨hp, hl⟩ := Bool.and_eq_true_iff.mp hp
  obtain ⟨hp, hc⟩ := Bool.and_eq_true_iff.mp hp
  obtain ⟨he, ht⟩ := Bool.and_eq_true_iff.mp hp
  obtain ⟨w, hw, hq⟩ := exists_reaches hl
  exact ⟨u, w, hu, u.worker.eq_exited he, beq_iff_eq.mp ht, beq_iff_eq.mp hc, hw,
    beq_iff_eq.mp hq, rfl⟩

end System
end Stepwise
