import Stepwise.StopChannel
import Mathlib.Data.List.Infix

namespace Stepwise

theorem Queue.taken_le_of_pop? {α : Type} {q r : Queue α} {a : α} (h : q.pop? = some (a, r)) :
    r.taken ≤ r.log.length := by
  unfold pop? at h
  split at h
  · next hs =>
    cases h
    exact (List.getElem?_eq_some_iff.mp hs).1
  · cases h

namespace StopQueue

variable {q r : StopQueue}

/-- The cursor is within the log, and nothing is kept for nobody. -/
structure Settled (q : StopQueue) : Prop where
  within : q.stops.taken ≤ q.stops.log.length
  empty : q.hasReceiver = false → q.stops.pending = []

/-- What one operation does to the queue: the stops that it accepts and those that it takes. -/
inductive Change (q : StopQueue) : List StoppedEvent → List StoppedEvent → StopQueue → Prop
  | ends {r : StopQueue} (stops : r.stops = q.stops) (receivers : r.hasReceiver = q.hasReceiver) :
    Change q [] [] r
  | push (stop : StoppedEvent) (held : q.hasReceiver = true) :
    Change q [stop] [] { q with stops := q.stops.push stop }
  | pop {stop : StoppedEvent} {stops : Queue StoppedEvent}
    (popped : q.stops.pop? = some (stop, stops)) : Change q [] [stop] { q with stops }
  | discard {r : StopQueue} (stops : r.stops = q.stops.discard) (gone : r.hasReceiver = false) :
    Change q [] [] r

theorem tryTake_cases (q : StopQueue) :
    (∃ stop stops, q.stops.pop? = some (stop, stops) ∧
      q.tryTake = (.ok (some stop), { q with stops })) ∨
    (q.stops.pending = [] ∧
      q.tryTake = (if q.hasSender then .ok none else .error .closed, q)) := by
  cases hp : q.stops.pop? with
  | none => exact .inr ⟨Queue.pop?_eq_none_iff.mp hp, by simp [tryTake, hp]⟩
  | some popped => exact .inl ⟨popped.1, popped.2, rfl, by simp [tryTake, hp]⟩

/-- At the end of a wait that was not cancelled the oldest stop is taken, if there is one. -/
theorem take_false_cases (q : StopQueue) :
    (∃ stop stops, q.stops.pop? = some (stop, stops) ∧
      q.take false = (.ok stop, { q with stops })) ∨
    (q.stops.pending = [] ∧
      q.take false = (.error (if q.hasSender then .timeout else .closed), q)) := by
  rcases q.tryTake_cases with ⟨stop, stops, hp, ht⟩ | ⟨hp, ht⟩
  · exact .inl ⟨stop, stops, hp, by simp [take, ht]⟩
  · right
    refine ⟨hp, ?_⟩
    cases hs : q.hasSender <;> simp [take, ht, hs]

theorem Change.settled {accepted taken : List StoppedEvent} (h : q.Change accepted taken r)
    (hq : q.Settled) : r.Settled := by
  cases h with
  | ends stops receivers =>
    refine ⟨stops ▸ hq.within, ?_⟩
    rw [stops, receivers]
    exact hq.empty
  | push stop held =>
    refine ⟨?_, ?_⟩
    · simpa [Queue.push] using Nat.le_succ_of_le hq.within
    · intro hr
      cases hr.symm.trans held
  | pop popped =>
    refine ⟨Queue.taken_le_of_pop? popped, fun hr => ?_⟩
    have hpending := Queue.pending_eq_cons_of_pop? popped
    rw [hq.empty hr] at hpending
    cases hpending
  | discard stops gone =>
    have hpending : r.stops.pending = [] := by simp [stops, Queue.pending, Queue.discard]
    exact ⟨by simp [stops, Queue.discard], fun _ => hpending⟩

/-- What was taken came first of what was accepted, and the rest is still there for who holds a
receiving end. -/
structure InOrder (accepted taken : List StoppedEvent) (q : StopQueue) : Prop where
  settled : q.Settled
  first : taken <+: accepted
  rest : q.hasReceiver = true → accepted = taken ++ q.stops.pending

theorem Change.inOrder {accepted taken more out : List StoppedEvent} (h : q.Change more out r)
    (hq : InOrder accepted taken q) : InOrder (accepted ++ more) (taken ++ out) r := by
  refine ⟨h.settled hq.settled, ?_, ?_⟩
  · cases h with
    | ends | discard => simpa using hq.first
    | push stop held => simpa using hq.first.trans (List.prefix_append _ _)
    | pop popped =>
      have hpending := Queue.pending_eq_cons_of_pop? popped
      have hr : q.hasReceiver = true := by
        by_contra hr
        rw [hq.settled.empty (Bool.eq_false_iff.mpr hr)] at hpending
        cases hpending
      rw [hq.rest hr, hpending]
      simp
  · intro hr
    cases h with
    | ends stops receivers => simpa [stops] using hq.rest (receivers ▸ hr)
    | push stop held =>
      rw [hq.rest held, Queue.pending_push _ _ hq.settled.within]
      simp
    | pop popped =>
      rw [hq.rest hr, Queue.pending_eq_cons_of_pop? popped]
      simp
    | discard stops gone => cases gone.symm.trans hr

end StopQueue

namespace StopChannel

/-- The stop that was put into the queue. -/
def Told.accepted : Told → List StoppedEvent
  | .pushed stop true => [stop]
  | _ => []

/-- The stop that was taken out of the queue. -/
def Told.taken : Told → List StoppedEvent
  | .tried (.ok (some stop)) => [stop]
  | .waited _ (.ok stop) => [stop]
  | _ => []

variable {c d : StopChannel} {a : Action} {told : Told} {i : Nat} {w : Wait}
variable {x : Told × StopChannel}

/-- The ways in which a wait goes on. -/
inductive Progress (c : StopChannel) (i : Nat) (w : Wait) : Told × StopChannel → Prop
  | look (looking : w.stage = .looking) (free : w.cancelled = false) :
    Progress c i w (c.goOn i .measuring)
  | giveUp (looking : w.stage = .looking) (cancelled : w.cancelled = true) :
    Progress c i w (c.finish i true)
  | late (measuring : w.stage = .measuring) (due : w.deadline ≤ c.now) :
    Progress c i w (c.goOn i .trying)
  | poll (limit : Nat) (measuring : w.stage = .measuring) :
    Progress c i w (c.goOn i (.polling limit))
  | again (limit : Nat) (polling : w.stage = .polling limit) : Progress c i w (c.goOn i .looking)
  | ready (limit : Nat) (polling : w.stage = .polling limit) (ready : c.queue.ready = true) :
    Progress c i w (c.finish i false)
  | last (trying : w.stage = .trying) : Progress c i w (c.finish i false)

theorem finish_eq (c : StopChannel) (i : Nat) (cancelled : Bool) :
    c.finish i cancelled = (.waited i (c.queue.take cancelled).1,
      { c with queue := (c.queue.take cancelled).2 }.setStage i
        (.ended (c.queue.take cancelled).1)) := rfl

@[simp] theorem now_setStage (c : StopChannel) (i : Nat) (stage : Wait.Stage) :
    (c.setStage i stage).now = c.now := rfl

theorem waits_setStage (hw : c.waits[i]? = some w) (stage : Wait.Stage) :
    (c.setStage i stage).waits[i]? = some { w with stage } := by
  simp [setStage, hw]

theorem finish_change (c : StopChannel) (i : Nat) (cancelled : Bool) :
    c.queue.Change (c.finish i cancelled).1.accepted (c.finish i cancelled).1.taken
      (c.finish i cancelled).2.queue := by
  rw [finish_eq]
  cases cancelled with
  | true => exact .ends rfl rfl
  | false =>
    rcases c.queue.take_false_cases with ⟨stop, stops, hp, ht⟩ | ⟨-, ht⟩ <;> rw [ht]
    · exact .pop hp
    · exact .ends rfl rfl

theorem Progress.change (h : c.Progress i w x) :
    c.queue.Change x.1.accepted x.1.taken x.2.queue := by
  cases h with
  | look | late | poll | again => exact .ends rfl rfl
  | giveUp | ready | last => exact c.finish_change i _

/-- A wait that only takes what is there is past its deadline. -/
def Timely (c : StopChannel) : Prop :=
  ∀ (i : Nat) (w : Wait), c.waits[i]? = some w → w.stage = .trying → w.deadline ≤ c.now

theorem Timely.setStage (h : c.Timely) {stage : Wait.Stage}
    (hs : ∀ w, c.waits[i]? = some w → stage = .trying → w.deadline ≤ c.now) :
    (c.setStage i stage).Timely := by
  intro j v hv trying
  simp only [StopChannel.setStage, List.getElem?_modify, Option.map_eq_map,
    Option.map_eq_some_iff] at hv
  obtain ⟨w, hw, rfl⟩ := hv
  split at trying
  · next hij =>
    subst hij
    simpa using hs w hw trying
  · next hij => simpa [hij] using h j w hw trying

/-- A try takes the oldest stop if there is one.  If there is none it changes nothing, and the queue
is closed when no sending end is left. -/
structure Tried (q : StopQueue) (answer : Except TakeError (Option StoppedEvent)) (r : StopQueue) :
    Prop where
  oldest : ∀ stop rest, q.stops.pending = stop :: rest →
    answer = .ok (some stop) ∧ r.stops.pending = rest
  empty : q.stops.pending = [] →
    answer = (if q.hasSender then .ok none else .error .closed) ∧ r = q

/-- A wait begins, behind those there are, if the clock reaches its deadline.  If it does not, the
call comes to nothing, and everything is as before. -/
structure Begun (c : StopChannel) (receiver timeout : Nat) (cancelled : Bool) (told : Told)
    (d : StopChannel) : Prop where
  within : c.now + timeout ≤ c.lastTime →
    told = .nothing ∧ d.queue = c.queue ∧
      d.waits = c.waits ++ [{ receiver, deadline := c.now + timeout, cancelled }]
  beyond : c.lastTime < c.now + timeout → told = .crashed ∧ d = c

theorem begun {receiver timeout : Nat} {cancelled : Bool}
    (h : c.step (.take receiver timeout cancelled) = some (told, d)) :
    Begun c receiver timeout cancelled told d := by
  simp only [step] at h
  split at h
  · split at h <;> cases h
    · next within => exact ⟨fun _ => ⟨rfl, rfl, rfl⟩, fun beyond => absurd within (by omega)⟩
    · next beyond => exact ⟨fun within => absurd within beyond, fun _ => ⟨rfl, rfl⟩⟩
  · cases h

/-- A wait that was not cancelled takes the oldest stop if there is one; it is closed when there is
none and no sending end is left, and the time is over when it says so. -/
structure Waited (c : StopChannel) (w : Wait) (answer : Except TakeError StoppedEvent)
    (r : StopQueue) : Prop where
  oldest : ∀ stop rest, c.queue.stops.pending = stop :: rest → answer ≠ .error .cancelled →
    answer = .ok stop ∧ r.stops.pending = rest
  empty : c.queue.stops.pending = [] → answer ≠ .error .cancelled →
    answer = .error (if c.queue.hasSender then .timeout else .closed) ∧ r = c.queue
  late : answer = .error .timeout → w.deadline ≤ c.now
  cancelled : answer = .error .cancelled → w.cancelled = true ∧ r = c.queue

theorem tried (q : StopQueue) : Tried q q.tryTake.1 q.tryTake.2 := by
  rcases q.tryTake_cases with ⟨stop, stops, hp, ht⟩ | ⟨hp, ht⟩ <;> rw [ht]
  · have hpending := Queue.pending_eq_cons_of_pop? hp
    refine ⟨?_, fun he => ?_⟩
    · intro first rest hq
      cases hpending.symm.trans hq
      exact ⟨rfl, rfl⟩
    · cases hpending.symm.trans he
  · refine ⟨fun first rest hq => ?_, fun _ => ⟨rfl, rfl⟩⟩
    cases hp.symm.trans hq

theorem waited_true (hw : w.cancelled = true) :
    Waited c w (c.queue.take true).1 (c.queue.take true).2 where
  oldest _ _ _ kept := absurd rfl kept
  empty _ kept := absurd rfl kept
  late h := nomatch h
  cancelled _ := ⟨hw, rfl⟩

/-- Out of time means that nothing was there though somebody could still have sent. -/
theorem waited_false
    (hlate : c.queue.stops.pending = [] → c.queue.hasSender = true → w.deadline ≤ c.now) :
    Waited c w (c.queue.take false).1 (c.queue.take false).2 := by
  rcases c.queue.take_false_cases with ⟨stop, stops, hp, ht⟩ | ⟨hp, ht⟩ <;> rw [ht]
  · have hpending := Queue.pending_eq_cons_of_pop? hp
    refine ⟨?_, fun he _ => ?_, (nomatch ·), (nomatch ·)⟩
    · intro first rest hq _
      cases hpending.symm.trans hq
      exact ⟨rfl, rfl⟩
    · cases hpending.symm.trans he
  · refine ⟨fun first rest hq _ => ?_, fun _ _ => ⟨rfl, rfl⟩, fun h => ?_, fun h => ?_⟩
    · cases hp.symm.trans hq
    · refine hlate hp ?_
      by_contra hs
      simp [hs] at h
    · split at h <;> cases h

end StopChannel
end Stepwise
