import Stepwise.Proofs.Session.Issuing
import Stepwise.Proofs.Session.Naming

namespace Stepwise
open EngineM

variable {E : Engine}

namespace SessionM

variable {σ α β : Type} {s : Session} {x : SessionError} {g : Session → Except SessionError α}

theorem run_get (s : Session) : (get : SessionM σ Session).run.run s = pure (.ok s, s) := rfl

theorem run_read_ok {a : α} (hg : g s = .ok a) (f : α → SessionM σ β) :
    (read g >>= f).run.run s = (f a).run.run s := by
  simp [read, run_get, hg]

theorem run_read_error (hg : g s = .error x) (f : α → SessionM σ β) :
    (read g >>= f).run.run s = pure (.error x, s) := by
  simp [read, run_get, hg]

theorem run_map_error {m : SessionM σ α} (h : m.run.run s = pure (.error x, s)) (f : α → β) :
    (f <$> m).run.run s = pure (.error x, s) := by
  simp [h, Except.map]

theorem run_bind_error {m : SessionM σ α} (h : m.run.run s = pure (.error x, s))
    (f : α → SessionM σ β) : (m >>= f).run.run s = pure (.error x, s) := by
  simp [h]

end SessionM

theorem Session.ensureStopped_eq_ok_iff {s : Session} :
    s.ensureStopped = .ok () ↔ s.runState = .stopped := by
  unfold Session.ensureStopped
  cases s.runState <;> simp

theorem Session.exists_of_unstopped {s : Session} (hs : s.runState ≠ .stopped) :
    ∃ x, s.ensureStopped = .error x := by
  cases he : s.ensureStopped with
  | ok => exact absurd (ensureStopped_eq_ok_iff.mp he) hs
  | error x => exact ⟨x, rfl⟩

namespace Request

variable {σ : Type} {cx : Context σ} {home : Home} {s t : Session} {x : SessionError} {r : Request}

/-- What needs a halt is refused without one, and the engine is not asked. -/
theorem serve_unstopped (hc : r.call? = none) (hs : s.ensureStopped = .error x) :
    (r.serve cx home).run.run s = pure (.error x, s) := by
  cases r with
  | expand =>
    rw [serve]
    exact SessionM.run_map_error (SessionM.run_read_error hs _) _
  | setVariable =>
    rw [serve]
    exact SessionM.run_map_error (SessionM.run_bind_error (SessionM.run_read_error hs _) _) _
  | evaluate =>
    rw [serve]
    refine SessionM.run_map_error ?_ _
    unfold SessionM.evaluate
    exact SessionM.run_read_error hs _
  | _ => cases hc

/-- Setting and removing breakpoints leaves the handles alone. -/
theorem handles_of_call (hc : r.call?.isSome = true) {e u : σ} {result : Result}
    (h : ((r.serve cx home).run.run s).Returns e (result, t) u) : t.handles = s.handles := by
  have kept {α : Type} {f : Registry → EngineM σ (α × Registry)} {g : α → Answer}
      (h : ((g <$> SessionM.onRegistry f).run.run s).Returns e (result, t) u) :
      t.handles = s.handles := by
    rw [map_eq_pure_bind] at h
    rcases SessionM.returns_bind h with ⟨_, _, hx⟩ | ⟨a, s', e', ha, hp⟩
    · obtain ⟨_, _, hx, _⟩ := SessionM.onRegistry_returns hx
      cases hx
    · obtain ⟨_, _, _, rfl, _⟩ := SessionM.onRegistry_returns ha
      cases hp
      rfl
  cases r with
  | setLineBreakpoints | setCommandBreakpoints =>
    rw [serve] at h
    exact kept h
  | removeAllBreakpoints =>
    rw [serve] at h
    obtain ⟨_, _, _, rfl, _⟩ := SessionM.onRegistry_returns h
    rfl
  | _ => cases hc

/-- Without a halt no request adds handles. -/
theorem handles_of_unstopped (hs : s.runState ≠ .stopped) {e u : σ} {result : Result}
    (h : ((r.serve cx home).run.run s).Returns e (result, t) u) : t.handles = s.handles := by
  cases hc : r.call? with
  | some call => exact handles_of_call (by simp [hc]) h
  | none =>
    obtain ⟨x, hx⟩ := Session.exists_of_unstopped hs
    rw [serve_unstopped hc hx] at h
    cases h
    rfl

end Request

namespace Session

/-- What a step does to the stops and the handles: nothing, or handles are added in a stop, or a
stop begins, with handles of its own, or the session ends.  A stop can always be left. -/
inductive Turn (s t : Session) : Prop
  | stays (queued : t.queuedStops = s.queuedStops) (handles : t.handles = s.handles)
    (halted : t.runState = .stopped → s.runState = .stopped)
  | grows (queued : t.queuedStops = s.queuedStops) (before : s.runState = .stopped)
    (after : t.runState = .stopped) (handles : s.handles.Extends t.handles)
  | halts (event : StoppedEvent) (queued : t.queuedStops = s.queuedStops ++ [event])
    (after : t.runState = .stopped)
    (generation : t.handles.generation = s.handles.reset.generation)
  | ends (queued : t.queuedStops = s.queuedStops) (ended : t.runState = .terminated)
    (handles : t.handles = s.handles.reset)

variable {s t : Session}

theorem Stocked.stays (hs : s.Stocked) (hh : t.handles = s.handles)
    (hf : t.frames = s.frames ∨ t.frames = []) : t.Stocked := by
  refine ⟨hh ▸ hs.handles, ?_⟩
  rcases hf with hf | hf
  · rw [hf, hh]
    exact hs.frames
  · simp [hf]

namespace Turn

theorem refl (s : Session) : s.Turn s :=
  .stays rfl rfl id

theorem terminate (hs : s.Stocked) (hq : t.queuedStops = s.queuedStops)
    (hh : t.handles = s.handles) (hf : t.frames = s.frames ∨ t.frames = [])
    (hr : t.runState = s.runState) : t.terminate.Stocked ∧ s.Turn t.terminate := by
  unfold Session.terminate
  split
  · exact ⟨hs.stays hh hf, .stays hq hh (hr ▸ id)⟩
  · refine ⟨⟨?_, nofun⟩, .ends hq rfl (congrArg HandleTable.reset hh)⟩
    exact hh ▸ hs.handles.reset

theorem complete (hs : s.Stocked) (outcome : Outcome) :
    (s.complete outcome).Stocked ∧ s.Turn (s.complete outcome) := by
  rcases complete_cases s outcome with h | ⟨_, h⟩
  · rw [h]
    exact terminate hs rfl rfl (.inr rfl) rfl
  · rw [h]
    exact ⟨hs.stays rfl (.inr rfl), .stays rfl rfl nofun⟩

theorem exit (hs : s.Stocked) (crashed : Bool) :
    (s.exit crashed).Stocked ∧ s.Turn (s.exit crashed) := by
  unfold Session.exit
  cases crashed with
  | false => exact terminate hs rfl rfl (.inl rfl) rfl
  | true => exact terminate hs rfl rfl (.inl rfl) rfl

theorem receive (hs : s.Stocked) (hk : s.stops.IsKept) {reception : Reception}
    (h : s.receive reception = some t) : t.Stocked ∧ s.Turn t := by
  have hq := (stops_receive h hk).1
  rw [receive_cases h] at hq ⊢
  exact ⟨hs.stays rfl (.inl rfl), .stays hq rfl id⟩

theorem hold (hs : s.Stocked) (hk : s.stops.IsKept) (h : Halt) (stack : List EngineFrame) :
    (s.hold h stack).Stocked ∧ s.Turn (s.hold h stack) := by
  obtain ⟨ht, hg⟩ := hs.hold h stack
  exact ⟨ht, .halts (s.stoppedEvent h) (queuedStops_hold hk h stack) rfl hg⟩

/-- A request is served. -/
theorem serve {σ : Type} {r : Request} {cx : Context σ} {home : Home} {e u : σ} {result : Result}
    (hs : s.Stocked) (h : ((r.serve cx home).run.run s).Returns e (result, t) u) :
    t.Stocked ∧ s.Turn t := by
  obtain ⟨ht, hx, _⟩ := r.serve_adds cx home hs.handles h
  have hsame := r.serve_sameHalt cx home h
  have hq : t.queuedStops = s.queuedStops :=
    congrArg (fun q : StopQueue => q.stops.log) hsame.stops
  refine ⟨⟨ht, ?_⟩, ?_⟩
  · rw [hsame.frames]
    exact fun f hf h hh => hx.mem_handles (hs.frames f hf hh)
  · by_cases hst : s.runState = .stopped
    · exact .grows hq hst (hsame.runState.trans hst) hx
    · exact .stays hq (r.handles_of_unstopped hst h) (hsame.runState ▸ id)

end Turn
end Session

/-- Only what a request does to the session is left open by a move. -/
theorem Move.turn {s t : Shared E.Run} (m : Move s t) (hs : s.session.Stocked)
    (hk : s.session.stops.IsKept) :
    t.session.Stocked ∧ s.session.Turn t.session ∨
      ∃ post call r, s.worker = .serving post call r ∧ t.worker = .taking post := by
  cases m with
  | serve post call r serving => exact .inr ⟨post, call, r, serving, rfl⟩
  | receive _ received => exact .inl (Session.Turn.receive hs hk received)
  | leaveStop next action stopped onward =>
    rw [Shared.session_send]
    refine .inl ⟨hs.stays rfl (.inr rfl), .stays rfl rfl ?_⟩
    rcases onward with rfl | rfl <;> nofun
  | execute | askAbort => exact .inl ⟨hs.stays rfl (.inl rfl), .stays rfl rfl nofun⟩
  | leave =>
    left
    simp only [Shared.terminate]
    split
    · rw [Shared.session_send]
      exact Session.Turn.terminate hs rfl rfl (.inl rfl) rfl
    · exact Session.Turn.terminate hs rfl rfl (.inl rfl) rfl
  | halt halt _ _ stack => exact .inl (Session.Turn.hold hs hk halt stack)
  | complete outcome | completeLast outcome => exact .inl (Session.Turn.complete hs outcome)
  | exit crashed => exact .inl (Session.Turn.exit hs crashed)
  | _ => exact .inl ⟨hs, .refl _⟩

namespace System

variable {s t : System E} {around : Surroundings} {engine : E.State} {interrupts : Interrupts}

theorem session_serve (s : System E) (post : Post E.Run) (call : Nat) (r : Request) :
    (s.serve post call r).session = s.session ∨ ∃ result session u,
      ((r.serve E.context s.session.around.home).run.run s.session).Returns s.engine
        (result, session) u ∧ (s.serve post call r).session = session := by
  unfold serve
  split
  · exact .inl rfl
  · rcases hr : ((r.serve E.context s.session.around.home).run.run s.session).run s.engine
      with ⟨_ | ⟨result, session⟩, u⟩
    · exact .inl (session_crash _ _ _)
    · exact .inr ⟨result, session, u, hr, rfl⟩

theorem step_turn (hr : Reaches (opened around engine interrupts) s) (hs : s.session.Stocked)
    {a : Action} (h : s.step a = some t) : t.session.Stocked ∧ s.session.Turn t.session := by
  rcases (step_move (departing_reaches hr) h).turn hs (stopsTold_reaches hr).kept with
    ht | ⟨post, call, r, hw, hpost⟩
  · exact ht
  · have hw : s.worker = .serving post call r := hw
    have hpost : t.worker = .taking post := hpost
    obtain rfl : a = .work := by
      by_contra ha
      rw [(Prod.mk.inj (thread_step ha h)).2, hw] at hpost
      cases hpost
    obtain rfl : s.serve post call r = t := by simpa [step, work, hw] using h
    rcases session_serve s post call r with he | ⟨result, session, u, hr, he⟩
    · rw [he]
      exact ⟨hs, .refl _⟩
    · rw [he]
      exact Session.Turn.serve hs hr

end System
end Stepwise
