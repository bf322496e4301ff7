import Stepwise.Proofs.Session.Operations

namespace Stepwise

theorem Queue.log_of_pop? {α : Type} {q r : Queue α} {a : α} (h : q.pop? = some (a, r)) :
    r.log = q.log := by
  unfold pop? at h
  split at h
  · cases h
    rfl
  · cases h

namespace EventFeed

variable {f g : EventFeed} {i : Nat} {e : SessionEvent}

theorem log_of_take? (h : f.take? = some (e, g)) : g.events.log = f.events.log := by
  obtain ⟨⟨_, events⟩, hp, he⟩ := Option.map_eq_some_iff.mp h
  cases he
  exact Queue.log_of_pop? hp

theorem log_of_fetch? (h : f.fetch? i = some g) : g.events.log = f.events.log := by
  unfold fetch? at h
  split at h
  · obtain ⟨⟨_, fed⟩, ht, rfl⟩ := Option.map_eq_some_iff.mp h
    have hl : fed.events.log = f.events.log := log_of_take? ht
    exact hl
  · cases h

theorem log_of_handOver? (h : f.handOver? i = some g) : g.events.log = f.events.log := by
  unfold handOver? at h
  split at h
  · cases h
    rfl
  · cases h
    rfl
  · cases h

theorem log_of_receive? (h : f.receive? i = some (e, g)) : g.events.log = f.events.log := by
  unfold receive? at h
  split at h
  · cases h
    rfl
  · cases h

end EventFeed

namespace StopQueue

variable {q : StopQueue}

/-- The session's own receiving end is held. -/
def IsKept (q : StopQueue) : Prop :=
  q.receivers[0]? = some true

theorem IsKept.hasReceiver (h : q.IsKept) : q.hasReceiver = true :=
  List.contains_iff_mem.mpr (List.mem_of_getElem? h)

theorem IsKept.push (h : q.IsKept) (stop : StoppedEvent) :
    (q.push stop).2 = { q with stops := q.stops.push stop } := by
  rw [StopQueue.push, if_pos h.hasReceiver]

theorem IsKept.cloneReceiver (h : q.IsKept) : q.cloneReceiver.IsKept := by
  obtain ⟨hl, _⟩ := List.getElem?_eq_some_iff.mp h
  exact (List.getElem?_append_left hl).trans h

theorem IsKept.dropReceiver (h : q.IsKept) {i : Nat} (hi : i ≠ 0) :
    (q.dropReceiver i).IsKept ∧ (q.dropReceiver i).stops = q.stops := by
  have hk : IsKept { q with receivers := q.receivers.set i false } :=
    (List.getElem?_set_ne hi).trans h
  rw [StopQueue.dropReceiver, if_pos hk.hasReceiver]
  exact ⟨hk, rfl⟩

theorem tryTake_log (q : StopQueue) :
    q.tryTake.2.stops.log = q.stops.log ∧ q.tryTake.2.receivers = q.receivers := by
  unfold tryTake
  split
  · next hp => exact ⟨Queue.log_of_pop? hp, rfl⟩
  · exact ⟨rfl, rfl⟩

theorem take_log (cancelled : Bool) (q : StopQueue) :
    (q.take cancelled).2.stops.log = q.stops.log ∧
      (q.take cancelled).2.receivers = q.receivers := by
  have ht := tryTake_log q
  unfold take
  split
  · exact ⟨rfl, rfl⟩
  · split
    · next h => simpa [h] using ht
    · next h => simpa [h] using ht
    · next h => simpa [h] using ht

end StopQueue

namespace Session

variable {s t : Session}

/-- Receivers change nothing but the two queues they receive from. -/
theorem receive_cases {r : Reception} (h : s.receive r = some t) :
    t = { s with stops := t.stops, feed := t.feed } := by
  cases r <;> simp only [receive, Option.some.injEq, Option.map_eq_some_iff] at h
  case dropStops receiver =>
    split at h
    · cases h
    · cases h
      rfl
  case takeStop | cloneStops | subscribe | unsubscribe =>
    cases h
    rfl
  case takeEvent | fetch | handOver | receive =>
    obtain ⟨_, _, rfl⟩ := h
    rfl

theorem runState_receive {r : Reception} (h : s.receive r = some t) :
    t.runState = s.runState := by
  rw [receive_cases h]

theorem executing_receive {r : Reception} (h : s.receive r = some t) :
    t.executing = s.executing := by
  rw [receive_cases h]

theorem published_receive {r : Reception} (h : s.receive r = some t) :
    t.published = s.published := by
  cases r with
  | takeStop | cloneStops | subscribe | unsubscribe =>
    cases h
    rfl
  | dropStops receiver =>
    simp only [receive] at h
    split at h
    · cases h
    · cases h
      rfl
  | takeEvent =>
    obtain ⟨⟨e, feed⟩, hf, rfl⟩ := Option.map_eq_some_iff.mp h
    exact EventFeed.log_of_take? hf
  | fetch relay =>
    obtain ⟨feed, hf, rfl⟩ := Option.map_eq_some_iff.mp h
    exact EventFeed.log_of_fetch? hf
  | handOver relay =>
    obtain ⟨feed, hf, rfl⟩ := Option.map_eq_some_iff.mp h
    exact EventFeed.log_of_handOver? hf
  | receive relay =>
    obtain ⟨⟨e, feed⟩, hf, rfl⟩ := Option.map_eq_some_iff.mp h
    exact EventFeed.log_of_receive? hf

theorem stops_receive {r : Reception} (h : s.receive r = some t) (hk : s.stops.IsKept) :
    t.queuedStops = s.queuedStops ∧ t.stops.IsKept := by
  cases r with
  | takeStop cancelled =>
    cases h
    obtain ⟨hl, hr⟩ := s.stops.take_log cancelled
    exact ⟨hl, (congrArg (·[0]?) hr).trans hk⟩
  | cloneStops =>
    cases h
    exact ⟨rfl, hk.cloneReceiver⟩
  | dropStops receiver =>
    simp only [receive] at h
    split at h
    · cases h
    · next hr =>
      cases h
      obtain ⟨hd, hs⟩ := hk.dropReceiver hr
      exact ⟨congrArg (·.log) hs, hd⟩
  | takeEvent | fetch | handOver | receive =>
    obtain ⟨_, _, rfl⟩ := Option.map_eq_some_iff.mp h
    exact ⟨rfl, hk⟩
  | subscribe | unsubscribe =>
    cases h
    exact ⟨rfl, hk⟩

/-- A halt that the session holds is queued as one stop. -/
theorem queuedStops_hold (hk : s.stops.IsKept) (h : Halt) (stack : List EngineFrame) :
    (s.hold h stack).queuedStops = s.queuedStops ++ [s.stoppedEvent h] := by
  rw [queuedStops, stops_hold, hk.push]
  rfl

end Session
end Stepwise
