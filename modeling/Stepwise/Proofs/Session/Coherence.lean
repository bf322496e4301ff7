import Stepwise.Proofs.Session.Chronicle
import Stepwise.Proofs.Session.Course
import Stepwise.Proofs.Session.Editing
import Stepwise.Proofs.Session.Passing

namespace Stepwise

variable {ρ : Type} {E : Engine}

namespace StopQueue

theorem senders_tryTake (q : StopQueue) : q.tryTake.2.senders = q.senders := by
  unfold tryTake
  split <;> rfl

theorem senders_take (cancelled : Bool) (q : StopQueue) :
    (q.take cancelled).2.senders = q.senders := by
  have ht := q.senders_tryTake
  unfold take
  split
  · rfl
  · split
    · next h => simpa [h] using ht
    · next h => simpa [h] using ht
    · next h => simpa [h] using ht

theorem senders_push (q : StopQueue) (stop : StoppedEvent) : (q.push stop).2.senders = q.senders := by
  unfold push
  split <;> rfl

end StopQueue

theorem Session.senders_receive {s t : Session} {r : Reception} (h : s.receive r = some t) :
    t.stops.senders = s.stops.senders := by
  cases r with
  | takeStop cancelled =>
    cases h
    exact s.stops.senders_take cancelled
  | dropStops receiver =>
    simp only [receive] at h
    split at h
    · cases h
    · cases h
      unfold StopQueue.dropReceiver
      dsimp only
      split <;> rfl
  | cloneStops | subscribe | unsubscribe =>
    cases h
    rfl
  | takeEvent | fetch | handOver | receive =>
    obtain ⟨_, _, rfl⟩ := Option.map_eq_some_iff.mp h
    rfl

theorem Session.taken_terminate (s : Session) :
    s.terminate.stops.stops.taken = s.stops.stops.taken := by
  unfold terminate
  split <;> rfl

/-- The fields that are written together fit together. -/
structure Session.Coherent (s : Session) : Prop where
  executing : s.runState = .stopped ∨ s.runState = .aborting → s.executing = true
  frames : s.frames ≠ [] → s.runState = .stopped
  /-- The session's own sending end of the stops, which is the only one. -/
  senders : s.stops.senders = [decide (s.runState ≠ .terminated)]

namespace Session.Coherent

variable {s t : Session}

theorem opened (around : Surroundings) : Coherent { around } :=
  ⟨by simp, by simp, rfl⟩

theorem noFrames (h : s.Coherent) (hs : s.runState ≠ .stopped) : s.frames = [] := by
  by_contra hf
  exact hs (h.frames hf)

theorem same (h : s.Coherent) (hr : t.runState = s.runState) (hx : t.executing = s.executing)
    (hf : t.frames = s.frames) (hs : t.stops.senders = s.stops.senders) : t.Coherent := by
  obtain ⟨he, hfr, hse⟩ := h
  rw [← hr] at he hfr hse
  rw [← hx] at he
  rw [← hf] at hfr
  rw [← hs] at hse
  exact ⟨he, hfr, hse⟩

/-- A session that is not in a halt before nor after. -/
theorem change (h : s.Coherent) (hs : s.runState ≠ .stopped) (hl : s.runState ≠ .terminated)
    (hr : t.runState = .running ∨ t.runState = .aborting) (hx : t.executing = true)
    (hf : t.frames = s.frames) (hq : t.stops = s.stops) : t.Coherent := by
  refine ⟨fun _ => hx, ?_, ?_⟩
  · intro hn
    rw [hf, h.noFrames hs] at hn
    exact absurd rfl hn
  · rw [hq, h.senders]
    rcases hr with hr | hr <;> simp [hr, hl]

theorem leaveStop (h : s.Coherent) (hs : s.runState = .stopped) {next : RunState}
    (hn : next = .running ∨ next = .aborting) : (s.leaveStop next).Coherent := by
  refine ⟨fun _ => h.executing (.inl hs), fun hf => absurd rfl hf, ?_⟩
  have hq : (s.leaveStop next).stops.senders = s.stops.senders := rfl
  rw [hq, h.senders, runState_leaveStop]
  rcases hn with rfl | rfl <;> simp [hs]

/-- The end of a session needs less than all parts to agree. -/
theorem of_terminate (hf : s.runState = .terminated → s.frames = [])
    (hs : s.stops.senders = [decide (s.runState ≠ .terminated)]) : s.terminate.Coherent := by
  by_cases ht : s.runState = .terminated
  · rw [terminate_of_terminated ht]
    refine ⟨?_, fun hn => absurd (hf ht) hn, hs⟩
    intro hr
    rw [ht] at hr
    rcases hr with hr | hr <;> cases hr
  · rw [terminate, if_neg ht]
    refine ⟨?_, fun hn => absurd rfl hn, ?_⟩
    · intro hr
      rcases hr with hr | hr <;> cases hr
    · simp only [publish, StopQueue.dropSender, hs]
      simp

theorem terminate (h : s.Coherent) : s.terminate.Coherent :=
  of_terminate (fun ht => h.noFrames (by simp [ht])) h.senders

theorem complete (h : s.Coherent) (outcome : Outcome) : (s.complete outcome).Coherent := by
  rcases complete_cases s outcome with hc | ⟨hl, hc⟩
  · rw [hc]
    exact of_terminate (fun _ => rfl) h.senders
  · rw [hc]
    refine ⟨?_, fun hn => absurd rfl hn, ?_⟩
    · intro hr
      rcases hr with hr | hr <;> cases hr
    · have hq : (s.concluded outcome).stops.senders = s.stops.senders := rfl
      simp [hq, h.senders, hl]

theorem exit (h : s.Coherent) (crashed : Bool) : (s.exit crashed).Coherent := by
  cases crashed with
  | false => exact h.terminate
  | true =>
    have hf : s.runState = .terminated → s.frames = [] := fun ht => h.noFrames (by simp [ht])
    exact of_terminate hf h.senders

theorem hold (h : s.Coherent) (hx : s.executing = true) (hl : s.runState ≠ .terminated)
    (halt : Halt) (stack : List EngineFrame) : (s.hold halt stack).Coherent := by
  refine ⟨fun _ => hx, fun _ => rfl, ?_⟩
  have hr : (s.hold halt stack).runState = .stopped := rfl
  rw [stops_hold, StopQueue.senders_push, h.senders, hr]
  simp [hl]

end Session.Coherent

namespace Shared

/-- A session that executes a script has it in flight, as long as the thread is there. -/
def Busy (s : Shared ρ) : Prop :=
  s.session.executing = true → s.alive = true → s.inFlight ≠ []

theorem Busy.same {s t : Shared ρ} (h : s.Busy) (hi : t.inFlight = s.inFlight)
    (hx : t.session.executing = s.session.executing) (ha : t.alive = s.alive) : t.Busy := by
  unfold Busy
  rw [hi, hx, ha]
  exact h

end Shared

theorem Session.executing_complete (s : Session) (outcome : Outcome) :
    (s.complete outcome).executing = false := by
  rcases complete_cases s outcome with hc | ⟨_, hc⟩
  · rw [hc, executing_terminate]
    rfl
  · rw [hc]
    rfl

theorem Session.runState_complete_of_aborting {s : Session} (h : s.runState = .aborting)
    (outcome : Outcome) : (s.complete outcome).runState = .terminated := by
  unfold complete
  simp only [publish, h]
  exact runState_terminate _

namespace Move

open Shared

variable {s t : Shared ρ}

theorem coherent (m : Move s t) (hc : s.Closed) (ho : s.OneInFlight) (ha : s.Attended)
    (h : s.session.Coherent) : t.session.Coherent := by
  cases m with
  | receive _ received =>
    have ht := Session.receive_cases received
    refine h.same ?_ ?_ ?_ (Session.senders_receive received) <;> rw [ht]
  | leaveStop _ _ stopped onward =>
    rw [session_send]
    exact h.leaveStop stopped onward
  | execute _ live free alive =>
    exact h.change (ha.not_stopped_of_free hc ho alive free) live (.inl rfl) rfl rfl rfl
  | askAbort running busy =>
    exact h.change (by simp [running]) (by simp [running]) (.inr rfl) busy rfl rfl
  | leave =>
    split
    · rw [terminate_send, session_send]
      exact h.terminate
    · exact h.terminate
  | serve _ _ _ _ same =>
    refine h.same same.runState same.executing ?_ (by rw [same.stops])
    rw [same]
  | halt halt _ execution stack halting accepted =>
    have hx := (ho.alone (show s.worker.execution? = some execution by rw [halting]; rfl)).1
    refine h.hold hx ?_ halt stack
    rcases accepted with hr | hr <;> simp [hr]
  | complete outcome | completeLast outcome => exact h.complete outcome
  | exit crashed _ => exact h.exit crashed
  | _ => exact h

theorem busy (m : Move s t) (hc : s.Closed) (ho : s.OneInFlight) (h : s.Busy) : t.Busy := by
  cases m with
  | stay => exact h
  | receive _ received => exact h.same rfl (Session.executing_receive received) rfl
  | leaveStop => exact h.same (inFlight_send _ rfl) (by simp) (by simp)
  | execute => exact fun _ _ => by simp [inFlight, Command.execution?]
  | askAbort => exact h.same rfl rfl rfl
  | leave =>
    split
    · exact h.same (inFlight_send s rfl) (by simp [terminate]) (by simp [terminate])
    · exact h.same rfl (by simp [terminate]) rfl
  | ask | shutDown => exact h.same (by simp [inFlight, Command.execution?]) rfl rfl
  | pass _ _ _ _ _ queued | drop _ _ _ _ _ queued =>
    exact h.same (by simp [inFlight, queued, List.filterMap_cons, Command.execution?]) rfl rfl
  | pick _ _ _ _ working queued | launch _ _ _ _ working queued
    | resume _ _ _ _ working queued =>
    exact h.same (by simp [inFlight, working, queued, List.filterMap_cons, Worker.execution?,
      Post.execution?, Command.execution?]) rfl rfl
  | stopRun _ _ _ _ working busy queued =>
    exact h.same (by simp [inFlight, working, busy, queued, List.filterMap_cons,
      Worker.execution?, Command.execution?]) rfl rfl
  | serve _ _ _ serving same =>
    exact h.same (by simp [inFlight, serving, Worker.execution?]) same.executing rfl
  | goOn _ _ working _ | halt _ _ _ _ working _ | refuseHalt _ _ _ working _ =>
    exact h.same (by simp [inFlight, working, Worker.execution?, Post.execution?]) rfl rfl
  | run _ _ _ running ran =>
    exact h.same (by rw [inFlight, ran.execution?, inFlight, running]; rfl) rfl rfl
  | refuse post busy _ execution _ taking run queued =>
    obtain ⟨_, hn, _⟩ := ho.alone (show s.worker.execution? = some busy by rw [taking]; exact run)
    simp [queued, Command.execution?] at hn
  | complete outcome execution completing =>
    intro hx
    rw [Session.executing_complete] at hx
    cases hx
  | crash | stop | completeLast =>
    intro _ ha
    cases ha
  | exit _ exiting =>
    intro _ ha
    have he : s.alive = false := by simpa [exiting, Worker.isEnding] using hc.ending
    rw [he] at ha
    cases ha

/-- Only the end of the session follows a request to abort. -/
theorem aborting (m : Move s t) (hk : s.session.Coherent) (h : s.session.runState = .aborting) :
    t.session.runState = .aborting ∨ t.session.runState = .terminated := by
  cases m with
  | receive _ received => exact .inl ((Session.runState_receive received).trans h)
  | leaveStop _ _ stopped =>
    rw [h] at stopped
    cases stopped
  | execute source live free alive =>
    have hx := hk.executing (.inr h)
    rw [free] at hx
    cases hx
  | askAbort running =>
    rw [h] at running
    cases running
  | leave => exact .inr (Session.runState_terminate _)
  | serve _ _ _ _ same => exact .inl (same.runState.trans h)
  | halt _ _ _ _ _ accepted =>
    rw [h] at accepted
    rcases accepted with ha | ha <;> cases ha
  | complete outcome | completeLast outcome =>
    exact .inr (Session.runState_complete_of_aborting h outcome)
  | exit crashed _ => exact .inr (Session.runState_exit _ crashed)
  | _ => exact .inl h

/-- A session that is about to end, or has ended, queues no stop, and the thread enters no halt. -/
theorem noStop (m : Move s t) (hk : s.session.stops.IsKept)
    (h : s.session.runState = .aborting ∨ s.session.runState = .terminated) :
    t.session.queuedStops = s.session.queuedStops ∧
      (t.worker.isHalted = true → s.worker.isHalted = true) := by
  constructor
  · rcases m.queuedStops hk with hq | ⟨_, _, _, _, ha, _, _⟩
    · exact hq
    · rcases h with h | h <;> rcases ha with ha | ha <;> cases h.symm.trans ha
  · intro hw
    cases m with
    | leaveStop => rwa [worker_send] at hw
    | leave =>
      unfold terminate at hw
      split at hw
      · rwa [worker_send] at hw
      · exact hw
    | pick _ _ _ _ taking =>
      rw [taking]
      exact hw
    | serve _ _ _ serving =>
      rw [serving]
      exact hw
    | run _ _ _ _ ran =>
      rw [ran.isHalted] at hw
      cases hw
    | halt _ _ _ _ _ accepted =>
      rcases h with h | h <;> rcases accepted with ha | ha <;> cases h.symm.trans ha
    | crash | launch | resume | stop | stopRun | goOn | refuseHalt | complete | completeLast
      | exit => cases hw
    | _ => exact hw

end Move

namespace System

variable {s t : System E} {around : Surroundings} {engine : E.State} {interrupts : Interrupts}

theorem session_coherent (h : Reaches (opened around engine interrupts) s) :
    s.session.Coherent :=
  shared_reaches (P := fun s => s.session.Coherent) h (.opened around) fun hr m =>
    m.coherent (closed_reaches hr) (oneInFlight_reaches hr) (attended_reaches hr)

theorem busy_reaches (h : Reaches (opened around engine interrupts) s) : s.shared.Busy :=
  shared_reaches h nofun fun hr m => m.busy (closed_reaches hr) (oneInFlight_reaches hr)

/-- How many stops have been taken out of the queue. -/
def stopsTaken (s : System E) : Nat :=
  s.session.stops.stops.taken

theorem stopsTaken_serve (s : System E) (post : Post E.Run) (call : Nat) (request : Request) :
    (s.serve post call request).stopsTaken = s.stopsTaken := by
  unfold serve stopsTaken
  split
  · rfl
  rcases hr : ((request.serve E.context s.session.around.home).run.run s.session).run s.engine
    with ⟨_ | ⟨result, session⟩, engine⟩
  · dsimp only
    rw [session_crash]
    rfl
  · have hs := request.serve_sameHalt E.context s.session.around.home hr
    exact congrArg (·.stops.taken) hs.stops

theorem stopsTaken_tellHalt (s : System E) (h : Halt) (k : Resume → E.Run) (execution : Nat) :
    (s.tellHalt h k execution).stopsTaken = s.stopsTaken := by
  unfold tellHalt stopsTaken
  rcases hr : (s.session.halt E.context h).run s.engine with ⟨_ | ⟨accepted, session⟩, engine⟩
  · dsimp only
    rw [session_crash]
  · rcases halt_cases hr with ⟨_, _, stack, _, rfl⟩ | ⟨_, _, rfl⟩
    · dsimp only
      rw [Session.stops_hold]
      unfold StopQueue.push
      split <;> rfl
    · rfl

theorem stopsTaken_tellEnd (s : System E) (outcome : Outcome) (execution : Nat) (closing : Bool) :
    (s.tellEnd outcome execution closing).stopsTaken = s.stopsTaken := by
  have hc : (s.session.complete outcome).stops.stops.taken = s.session.stops.stops.taken := by
    rcases Session.complete_cases s.session outcome with hc | ⟨_, hc⟩
    · rw [hc, Session.taken_terminate]
      rfl
    · rw [hc]
      rfl
  unfold tellEnd stopsTaken
  cases closing with
  | false => exact hc
  | true =>
    simp only [↓reduceIte]
    rw [session_close]
    exact hc

theorem stopsTaken_work (h : s.step .work = some t) : t.stopsTaken = s.stopsTaken := by
  simp only [step, Option.map_eq_some_iff] at h
  obtain ⟨⟨u, ms⟩, h, rfl⟩ := h
  unfold work at h
  split at h
  · next post hw =>
    split at h
    · cases h
      exact congrArg (·.stops.stops.taken) (session_take _ post _)
    · split at h
      · cases h
        rfl
      · cases h
  · cases h
    exact stopsTaken_serve s _ _ _
  · exact congrArg (·.stops.stops.taken) (session_run h)
  · cases h
    exact stopsTaken_tellHalt s _ _ _
  · cases h
    exact stopsTaken_tellEnd s _ _ _
  · next crashed _ =>
    cases h
    cases crashed <;> exact Session.taken_terminate _
  · cases h

theorem Edit.stopsTaken (h : Edit s t) : t.stopsTaken = s.stopsTaken := by
  cases h with
  | send c =>
    unfold System.send
    split <;> rfl
  | terminate => exact Session.taken_terminate _
  | _ => rfl

theorem Edits.stopsTaken (h : Edits s t) : t.stopsTaken = s.stopsTaken := by
  induction h with
  | refl => rfl
  | tail _ h ih => exact h.stopsTaken.trans ih

/-- Only who waits for a stop takes one. -/
theorem stopsTaken_step (hk : s.session.stops.IsKept) {a : Action} (h : s.step a = some t)
    (ha : a ≠ .receive (.takeStop false)) : t.stopsTaken = s.stopsTaken := by
  by_cases hw : a = .work
  · subst hw
    exact stopsTaken_work h
  by_cases hr : ∃ reception, a = .receive reception
  · obtain ⟨reception, rfl⟩ := hr
    obtain ⟨session, hs, rfl⟩ := Option.map_eq_some_iff.mp h
    cases reception with
    | takeStop cancelled =>
      cases cancelled with
      | false => exact absurd rfl ha
      | true =>
        cases hs
        rfl
    | dropStops receiver =>
      simp only [Session.receive] at hs
      split at hs
      · cases hs
      · next hn =>
        cases hs
        exact congrArg Queue.taken (hk.dropReceiver hn).2
    | cloneStops | subscribe | unsubscribe =>
      cases hs
      rfl
    | takeEvent | fetch | handOver | receive =>
      obtain ⟨_, _, rfl⟩ := Option.map_eq_some_iff.mp hs
      rfl
  · exact (edits_step hw (fun reception hr' => hr ⟨reception, hr'⟩) h).stopsTaken

end System

namespace StopQueue

/-- What waits for a stop answer, one after the other, once no sending end is left. -/
def lastAnswers (pending : List StoppedEvent) (waits : Nat) :
    List (Except TakeError StoppedEvent) :=
  (pending.take waits).map .ok ++ List.replicate (waits - pending.length) (.error .closed)

theorem lastAnswers_of_pending {pending rest : List StoppedEvent} {stop : StoppedEvent} {n : Nat}
    (h : pending.drop n = stop :: rest) :
    lastAnswers pending (n + 1) = lastAnswers pending n ++ [.ok stop] := by
  have hn : n < pending.length := by
    by_contra hn
    rw [List.drop_eq_nil_of_le (by omega)] at h
    cases h
  have hs : pending[n]? = some stop := by
    rw [← List.head?_drop, h]
    rfl
  have hz : n + 1 - pending.length = 0 := by omega
  have hz' : n - pending.length = 0 := by omega
  simp [lastAnswers, List.take_add_one, hs, hz, hz']

theorem lastAnswers_of_empty {pending : List StoppedEvent} {n : Nat} (h : pending.drop n = []) :
    lastAnswers pending (n + 1) = lastAnswers pending n ++ [.error .closed] := by
  have hn : pending.length ≤ n := List.drop_eq_nil_iff.mp h
  have hs : n + 1 - pending.length = n - pending.length + 1 := by omega
  rw [lastAnswers, lastAnswers, List.take_of_length_le hn, List.take_of_length_le (by omega), hs,
    List.replicate_succ', List.append_assoc]

/-- Without a sending end every wait is over at once. -/
theorem take_of_closed {q : StopQueue} (hq : q.hasSender = false) :
    (q.stops.pending = [] ∧ q.take false = (.error .closed, q)) ∨
      ∃ stop rest, q.stops.pending = stop :: rest ∧ (q.take false).1 = .ok stop ∧
        (q.take false).2.stops.pending = rest := by
  cases hp : q.stops.pop? with
  | none =>
    left
    refine ⟨Queue.pop?_eq_none_iff.mp hp, ?_⟩
    simp [take, tryTake, hp, hq]
  | some popped =>
    obtain ⟨stop, stops⟩ := popped
    right
    refine ⟨stop, stops.pending, Queue.pending_eq_cons_of_pop? hp, ?_, ?_⟩
    · simp [take, tryTake, hp]
    · simp [take, tryTake, hp]

end StopQueue

theorem Session.Coherent.hasSender_eq_false_iff {s : Session} (h : s.Coherent) :
    s.stops.hasSender = false ↔ s.runState = .terminated := by
  rw [StopQueue.hasSender, h.senders]
  cases hr : s.runState <;> simp

/-- What the caller is answered in a step that ends a wait for a stop. -/
def Leg.waited? (x : Leg E) : Option (Except TakeError StoppedEvent) :=
  if x.action = .receive (.takeStop false) then some (x.before.session.stops.take false).1
  else none

/-- What those who wait for stops are answered, the first one first. -/
def Leg.waited (legs : List (Leg E)) : List (Except TakeError StoppedEvent) :=
  legs.filterMap Leg.waited?

namespace System

variable {s t : System E} {legs : List (Leg E)} {around : Surroundings} {engine : E.State}
  {interrupts : Interrupts}

/-- The stops that can still be taken. -/
def pendingStops (s : System E) : List StoppedEvent :=
  s.session.stops.stops.pending

open Leg

/-- After the end of a session whoever waits for stops gets those that are left, and then learns
that the queue is closed. -/
theorem Course.waited_of_terminated (hr : Reaches (opened around engine interrupts) s)
    (hs : s.session.runState = .terminated) (h : s.Course legs t) :
    t.session.runState = .terminated ∧
      t.pendingStops = s.pendingStops.drop (waited legs).length ∧
      waited legs = StopQueue.lastAnswers s.pendingStops (waited legs).length := by
  induction h with
  | rest => exact ⟨hs, rfl, by simp [waited, StopQueue.lastAnswers]⟩
  | @step legs t u a h hstep ih =>
    obtain ⟨ht, hp, hw⟩ := ih
    have hrt : Reaches (opened around engine interrupts) t := h.reaches hr
    have hm : Move t.shared u.shared := step_move (departing_reaches hrt) hstep
    have hk : t.session.stops.IsKept := (stopsTold_reaches hrt).kept
    refine ⟨hm.terminated ht, ?_⟩
    by_cases ha : a = .receive (.takeStop false)
    · subst ha
      have hwu : waited (legs ++ [⟨t, .receive (.takeStop false), u⟩]) =
          waited legs ++ [(t.session.stops.take false).1] := by
        simp [waited, waited?]
      have hu : u.pendingStops = (t.session.stops.take false).2.stops.pending := by
        cases hstep
        rfl
      rw [hwu, hu, List.length_append, List.length_singleton]
      rcases StopQueue.take_of_closed ((session_coherent hrt).hasSender_eq_false_iff.mpr ht) with
        ⟨he, htake⟩ | ⟨stop, rest, he, htake, hrest⟩
      · have hd : s.pendingStops.drop (waited legs).length = [] := hp.symm.trans he
        rw [StopQueue.lastAnswers_of_empty hd, htake, ← hw, ← List.drop_drop, hd]
        exact ⟨he, rfl⟩
      · have hd : s.pendingStops.drop (waited legs).length = stop :: rest := hp.symm.trans he
        rw [StopQueue.lastAnswers_of_pending hd, htake, hrest, ← hw, ← List.drop_drop, hd]
        exact ⟨rfl, rfl⟩
    · have hwu : waited (legs ++ [⟨t, a, u⟩]) = waited legs := by
        simp [waited, waited?, ha]
      have hlog : u.session.queuedStops = t.session.queuedStops := (hm.noStop hk (.inr ht)).1
      have htaken : u.session.stops.stops.taken = t.session.stops.stops.taken :=
        stopsTaken_step hk hstep ha
      have hpu : u.pendingStops = t.pendingStops := by
        unfold Session.queuedStops at hlog
        simp only [pendingStops, Queue.pending, hlog, htaken]
      rw [hwu, hpu]
      exact ⟨hp, hw⟩

/-- A step by which no halt is accepted, queued or published. -/
structure TellsNoStop (s t : System E) : Prop where
  queued : t.session.queuedStops = s.session.queuedStops
  published : t.session.published.filterMap SessionEvent.stop? =
    s.session.published.filterMap SessionEvent.stop?
  halted : t.worker.isHalted = true → s.worker.isHalted = true
  /-- A thread that comes with a halt is sent on to abort. -/
  refused : ∀ h k execution, s.worker = .halting h k execution →
    t.worker = s.worker ∨ t.worker = .running (k .abort) execution false

theorem tellsNoStop (hr : Reaches (opened around engine interrupts) s)
    (hs : s.session.runState = .aborting ∨ s.session.runState = .terminated) {a : Action}
    (h : s.step a = some t) : s.TellsNoStop t := by
  have hm : Move s.shared t.shared := step_move (departing_reaches hr) h
  have htold : s.session.StopsTold := stopsTold_reaches hr
  have htold' : t.session.StopsTold := stopsTold_reaches (hr.step a h)
  obtain ⟨hq, hh⟩ := hm.noStop htold.kept hs
  refine ⟨hq, ?_, hh, ?_⟩
  · rw [← htold.told, ← htold'.told]
    exact hq
  · intro halt k execution hw
    by_cases ha : a = .work
    · subst ha
      right
      simp only [step, work, hw, Option.map_some, Option.some.injEq] at h
      rw [← h, tellHalt, halt_refused hs halt]
      rfl
    · left
      exact congrArg Prod.snd (thread_step ha h)

/-- What is known of a state of a session and of what follows from it. -/
structure Coherent (s : System E) : Prop where
  /-- As long as the thread is there, the execution is the only one that has not ended. -/
  inFlight : s.session.runState = .stopped ∨ s.session.runState = .aborting →
    s.session.executing = true ∧ (s.alive = true →
      ∃ execution, s.shared.inFlight = [execution] ∧ s.executions[execution]? = some .pending)
  frames : s.session.frames ≠ [] → s.session.runState = .stopped
  closed : s.session.stops.hasSender = false ↔ s.session.runState = .terminated
  aborting : s.session.runState = .aborting → ∀ a t, s.step a = some t →
    t.session.runState = .aborting ∨ t.session.runState = .terminated
  noStop : s.session.runState = .aborting ∨ s.session.runState = .terminated →
    ∀ a t, s.step a = some t → s.TellsNoStop t
  terminated : s.session.runState = .terminated → ∀ legs t, s.Course legs t →
    t.session.runState = .terminated ∧
      t.pendingStops = s.pendingStops.drop (waited legs).length ∧
      waited legs = StopQueue.lastAnswers s.pendingStops (waited legs).length
  /-- Who only looks for a stop learns of the end, too. -/
  emptied : s.session.runState = .terminated → s.pendingStops = [] →
    s.session.stops.tryTake = (.error .closed, s.session.stops)

/-- Whatever clients and the engine do, and in whatever order, the state of the session is
coherent. -/
theorem coherent_reaches (hr : Reaches (opened around engine interrupts) s) : s.Coherent := by
  have hc : s.session.Coherent := session_coherent hr
  refine ⟨?_, hc.frames, hc.hasSender_eq_false_iff, ?_, ?_, ?_, ?_⟩
  · intro hs
    have hx : s.session.executing = true := hc.executing hs
    refine ⟨hx, ?_⟩
    intro ha
    rcases oneInFlight_reaches hr with hn | ⟨_, done, he, hi⟩
    · exact absurd hn (busy_reaches hr hx ha)
    · refine ⟨done.length, hi, ?_⟩
      have he : s.executions = done ++ [.pending] := he
      simp [he]
  · intro hs a t h
    exact (step_move (departing_reaches hr) h).aborting hc hs
  · intro hs a t h
    exact tellsNoStop hr hs h
  · intro hs legs t h
    exact h.waited_of_terminated hr hs
  · intro hs he
    have hp : s.session.stops.stops.pop? = none := Queue.pop?_eq_none_iff.mpr he
    have hq : s.session.stops.hasSender = false := hc.hasSender_eq_false_iff.mpr hs
    simp [StopQueue.tryTake, hp, hq]

/-- A script is broken into and the session is left before the stop is taken. -/
theorem coherent_reaches_after_disconnect :
    ∃ s : System (scriptEngine { inlines := [("count", .counting 1)] }),
      Reaches (opened { home := .at ⟨"/"⟩ } (Script.State.initial [] []) { breakRequested := true }) s ∧
      s.session.runState = .terminated ∧ s.pendingStops.length = 1 ∧ s.Coherent := by
  have hf : ((opened { home := .at ⟨"/"⟩ } (Script.State.initial [] []) { breakRequested := true } :
      System (scriptEngine { inlines := [("count", .counting 1)] })).follow
      [.begin (.execute (.inline "count")) false, .advance 0, .work, .work, .work, .work, .work,
        .begin .disconnect false, .advance 1]).any
      (fun s => s.session.runState == .terminated && s.pendingStops.length == 1) = true := by cbv
  obtain ⟨s, hr, hp⟩ := exists_reaches hf
  obtain ⟨hs, hn⟩ := Bool.and_eq_true_iff.mp hp
  exact ⟨s, hr, beq_iff_eq.mp hs, beq_iff_eq.mp hn, coherent_reaches hr⟩

end System
end Stepwise
