import Stepwise.Proofs.Breakpoint.Replacement
import Stepwise.Proofs.Session.Course
import Stepwise.Proofs.Session.Editing
import Stepwise.Proofs.Session.Inspecting
import Stepwise.Proofs.Session.Staying

namespace Stepwise
open EngineM
open Script (LeavesRegistered)

variable {E : Engine}

/-- The call that a request to set or to remove breakpoints makes. -/
def Request.call? : Request → Option BreakpointCall
  | .setLineBreakpoints path requests => some (.setLine path requests)
  | .setCommandBreakpoints requests => some (.setCommands requests)
  | .removeAllBreakpoints => some .removeAll
  | _ => none

/-- The breakpoints that an answer returns. -/
def Answer.returned : Answer → List Breakpoint
  | .breakpoints list => list
  | _ => []

theorem SessionM.onRegistry_ends {σ α : Type} {f : Registry → EngineM σ (α × Registry)}
    {s : Session} {e u : σ} {a : α} {registry : Registry}
    (h : Returns (f s.registry) e (a, registry) u) :
    (onRegistry f).Ends s e fun r t w => r = .ok a ∧ t = { s with registry } ∧ w = u :=
  .get_bind (.lift_bind h (.set_bind (.pure ⟨rfl, rfl, rfl⟩)))

/-- A call is answered with what it returns, and the session changes its registry only. -/
theorem Request.serve_call {σ : Type} {cx : Context σ} {home : Home} {r : Request}
    {call : BreakpointCall} (hc : r.call? = some call) {s : Session} {e u : σ}
    {list : List Breakpoint} {registry : Registry}
    (h : Returns (call.perform cx home s.registry) e (list, registry) u) :
    SessionM.Ends (r.serve cx home) s e fun result t w =>
      ∃ answer, result = .ok answer ∧ answer.returned = list ∧ t = { s with registry } ∧ w = u := by
  cases r with
  | setLineBreakpoints path requests =>
    cases hc
    refine (SessionM.onRegistry_ends h).map ?_ ?_
    · rintro a t w ⟨⟨⟩, ht, hw⟩
      exact ⟨_, rfl, rfl, ht, hw⟩
    · rintro x t w ⟨⟨⟩, _⟩
  | setCommandBreakpoints requests =>
    cases hc
    refine (SessionM.onRegistry_ends h).map ?_ ?_
    · rintro a t w ⟨⟨⟩, ht, hw⟩
      exact ⟨_, rfl, rfl, ht, hw⟩
    · rintro x t w ⟨⟨⟩, _⟩
  | removeAllBreakpoints =>
    cases hc
    obtain ⟨next, w, hm, hp⟩ := h.of_bind
    obtain ⟨⟨⟩, rfl⟩ := hp.unique (.pure _ _)
    have hm : Returns ((fun r => (Answer.done, r)) <$> Registry.removeAll cx s.registry) e
        (.done, registry) u := by
      rw [map_eq_pure_bind]
      exact hm.bind (.pure _ _)
    refine SessionM.Ends.mono (SessionM.onRegistry_ends
      (f := fun r => (fun r => (Answer.done, r)) <$> Registry.removeAll cx r) hm) ?_
    rintro _ t w ⟨rfl, ht, hw⟩
    exact ⟨_, rfl, rfl, ht, hw⟩
  | expand | setVariable | evaluate => cases hc

theorem Inquiry.leavesRegistered {α : Type} {m : EngineM Script.State (Except EngineError α)}
    (h : Inquiry Script.context m) : LeavesRegistered m := by
  cases h with
  | listVariables scope => exact .listVariables scope
  | lookupVariable scope name => exact .lookupVariable scope name
  | children reference => exact .children reference
  | evaluate scope expression => exact .evaluate scope expression
  | coerce value type => exact .coerce value type
  | assign scope name value => exact .assign scope name value

theorem Request.inspects {σ : Type} {r : Request} (hr : r.call? = none) (cx : Context σ)
    (home : Home) : Inspects cx (r.serve cx home) := by
  cases r with
  | expand h => exact (Inspects.expand h).map _
  | setVariable h name expression => exact (Inspects.setVariable h name expression).map _
  | evaluate expression frame => exact (Inspects.evaluate expression frame).map _
  | _ => cases hr

/-- Where a session is, and its breakpoints. -/
def Session.settings (s : Session) : Surroundings × Registry :=
  (s.around, s.registry)

namespace Session

variable {s t : Session}

theorem settings_terminate (s : Session) : s.terminate.settings = s.settings := by
  unfold terminate
  split <;> rfl

theorem settings_complete (s : Session) (outcome : Outcome) :
    (s.complete outcome).settings = s.settings := by
  rcases complete_cases s outcome with hc | ⟨_, hc⟩
  · rw [hc, settings_terminate]
    rfl
  · rw [hc]
    rfl

theorem settings_exit (s : Session) (crashed : Bool) : (s.exit crashed).settings = s.settings := by
  cases crashed <;> exact settings_terminate _

theorem settings_receive {r : Reception} (h : s.receive r = some t) : t.settings = s.settings := by
  rw [receive_cases h]
  rfl

end Session

namespace System

variable {s t : System E}

theorem Edit.settings (h : Edit s t) : t.session.settings = s.session.settings := by
  cases h with
  | send c =>
    unfold System.send
    split <;> rfl
  | terminate => exact Session.settings_terminate _
  | _ => rfl

theorem settings_step {a : Action} (ha : a ≠ .work) (h : s.step a = some t) :
    t.session.settings = s.session.settings := by
  by_cases hr : ∃ reception, a = .receive reception
  · obtain ⟨reception, rfl⟩ := hr
    obtain ⟨session, hs, rfl⟩ := Option.map_eq_some_iff.mp h
    exact Session.settings_receive hs
  · have he := edits_step ha (fun reception hr' => hr ⟨reception, hr'⟩) h
    clear h
    induction he with
    | refl => rfl
    | tail _ h ih => exact h.settings.trans ih

/-- The call that a step answers, and the breakpoints that it returns. -/
def returned? (s : System E) (a : Action) : Option (BreakpointCall × List Breakpoint) :=
  match s.answered? a with
  | some (r, .given (.ok answer)) => r.call?.map fun call => (call, answer.returned)
  | _ => none

/-- Clients are not returned breakpoints without the thread. -/
theorem returned?_client {a : Action} (ha : a ≠ .work) : s.returned? a = none := by
  unfold returned?
  split
  · next r answer hans =>
    cases hc : r.call? with
    | none => rfl
    | some call =>
      cases a with
      | advance call =>
        simp only [answered?] at hans
        split at hans
        · obtain ⟨result, hl, he⟩ := Option.map_eq_some_iff.mp hans
          cases he
          unfold looked? at hl
          split at hl
          · cases hl
          · cases r with
            | expand | setVariable | evaluate => cases hc
            | _ => cases hl
        · cases hans
      | work => exact absurd rfl ha
      | _ => cases hans
  · rfl

theorem returned?_work (hw : ∀ post call r, s.worker ≠ .serving post call r) :
    s.returned? .work = none := by
  have hans : s.answered? .work = none := by
    cases hx : s.worker with
    | serving post call r => exact absurd hx (hw post call r)
    | _ => simp [answered?, hx]
  simp [returned?, hans]

theorem returned?_serving {post : Post E.Run} {call : Nat} {r : Request}
    (hw : s.worker = .serving post call r) (hc : r.call? = none) : s.returned? .work = none := by
  unfold returned?
  split
  · next r' answer hans =>
    simp only [answered?, hw, Option.some.injEq, Prod.mk.injEq] at hans
    rw [← hans.1, hc]
    rfl
  · rfl

/-- A request that calls for no breakpoints leaves them alone. -/
theorem serve_leads {R : E.State → E.State → Prop} (refl : ∀ e, R e e)
    (trans : ∀ {a b c}, R a b → R b c → R a c)
    (inquiry : ∀ {α : Type} {m : EngineM E.State (Except EngineError α)}, Inquiry E.context m →
      ∀ e, R e (m.run e).2)
    {r : Request} (hc : r.call? = none) (s : System E) (post : Post E.Run) (call : Nat) :
    R s.engine (s.serve post call r).engine ∧
      (s.serve post call r).session.settings = s.session.settings := by
  unfold serve
  split
  · exact ⟨refl _, rfl⟩
  obtain ⟨hr, hregistry⟩ := (Request.inspects hc E.context s.session.around.home).leads refl trans
    inquiry s.session s.engine
  rcases hrun : ((r.serve E.context s.session.around.home).run.run s.session).run s.engine
    with ⟨_ | ⟨result, session⟩, engine⟩
  · rw [hrun] at hr
    refine ⟨?_, ?_⟩
    · rw [engine_crash]
      exact hr
    · rw [session_crash]
      rfl
  · rw [hrun] at hr hregistry
    have haround : session.around = s.session.around := by
      rw [r.serve_sameHalt E.context s.session.around.home hrun]
    exact ⟨hr, congrArg₂ Prod.mk haround (hregistry _ _ rfl)⟩

section

variable {catalog : Script.Catalog} {s t : System (scriptEngine catalog)} {a : Action}

/-- The step of the thread looks at the breakpoints before a statement. -/
structure Looks (s : System (scriptEngine catalog)) (a : Action) (script : Script.Loaded)
    (stepping : Script.Stepping) (p : Script.Point) : Prop where
  action : a = .work
  running : ∃ execution closing, s.worker = .running (.checking script stepping p) execution closing
  unaborted : s.interrupts.abortRequested = false

/-- A step leaves the breakpoints alone, counts them, or answers a call. -/
inductive BreakpointStep (s t : System (scriptEngine catalog)) (a : Action) : Prop
  | rests (unreturned : s.returned? a = none) (settings : t.session.settings = s.session.settings)
    (registered : t.engine.registered = s.engine.registered)
  | looks {script : Script.Loaded} {stepping : Script.Stepping} {p : Script.Point}
    (unreturned : s.returned? a = none) (settings : t.session.settings = s.session.settings)
    (looks : s.Looks a script stepping p)
    (registered : t.engine.registered = (s.engine.looked script p).2.registered)
  | returns {call : BreakpointCall} {list : List Breakpoint}
    (returned : s.returned? a = some (call, list)) (around : t.session.around = s.session.around)
    (replaced : s.session.registry.Replaced s.session.around.home call s.engine list
      t.session.registry t.engine)

/-- The script engine survives every halt, and its breakpoints do. -/
theorem tellHalt_settings (s : System (scriptEngine catalog)) (halt : Halt)
    (k : Resume → (scriptEngine catalog).Run) (execution : Nat) :
    (s.tellHalt halt k execution).session.settings = s.session.settings ∧
      (s.tellHalt halt k execution).engine = s.engine := by
  have hr : ∃ accepted session, (s.session.halt (scriptEngine catalog).context halt).run s.engine =
      (some (accepted, session), s.engine) ∧ session.settings = s.session.settings := by
    cases hs : s.session.runState with
    | running | stopped => exact ⟨true, _, Session.halt_returns (by simp [hs]) halt, rfl⟩
    | aborting | terminated => exact ⟨false, _, halt_refused (by simp [hs]) halt, rfl⟩
  obtain ⟨accepted, session, hr, hsettings⟩ := hr
  unfold tellHalt
  rw [hr]
  exact ⟨hsettings, rfl⟩

/-- Serving a request that calls for breakpoints is performing the call. -/
theorem serve_performs (hs : s.session.registry.Synced s.engine) (hp : s.poisoned = false)
    {post : Post (scriptEngine catalog).Run} {id : Nat} {r : Request}
    (hw : s.worker = .serving post id r) {call : BreakpointCall} (hc : r.call? = some call) :
    ∃ list, s.returned? .work = some (call, list) ∧
      (s.serve post id r).session.around = s.session.around ∧
      Returns (call.perform Script.context s.session.around.home s.session.registry) s.engine
        (list, (s.serve post id r).session.registry) (s.serve post id r).engine := by
  obtain ⟨list, next, u, hperform, -⟩ := hs.perform_replaced s.session.around.home call
  obtain ⟨_, _, _, hrun, answer, rfl, rfl, rfl, rfl⟩ := r.serve_call hc hperform
  obtain ⟨hserved, hserve⟩ := serve_of_run hp hrun post id
  rw [hserve]
  exact ⟨answer.returned, by simp [returned?, answered?, hw, hserved, hc], rfl, hperform⟩

theorem serve_breakpointStep (hs : s.session.registry.Synced s.engine)
    {post : Post (scriptEngine catalog).Run} {call : Nat} {r : Request}
    (hw : s.worker = .serving post call r) : BreakpointStep s (s.serve post call r) .work := by
  by_cases hp : s.poisoned = true
  · refine .rests (by simp [returned?, answered?, hw, served, hp]) ?_ ?_ <;>
      rw [serve, if_pos hp] <;> rfl
  have hp : s.poisoned = false := Bool.eq_false_iff.mpr hp
  cases hc : r.call? with
  | some call =>
    obtain ⟨list, hreturned, haround, hperform⟩ := serve_performs hs hp hw hc
    obtain ⟨list', next, u, hperform', hreplaced⟩ := hs.perform_replaced s.session.around.home call
    obtain ⟨he, rfl⟩ := hperform.unique hperform'
    cases he
    exact .returns hreturned haround hreplaced
  | none =>
    have hn := returned?_serving hw hc
    obtain ⟨hr, hsettings⟩ := serve_leads
      (R := fun e u : Script.State => u.registered = e.registered)
      (fun _ => rfl) (fun h h' => h'.trans h) (fun hm e => hm.leavesRegistered e) hc s post _
    exact .rests hn hsettings hr

/-- What each step does, as long as registry and engine are in step. -/
theorem breakpointStep (hs : s.session.registry.Synced s.engine) (h : s.step a = some t) :
    BreakpointStep s t a := by
  by_cases ha : a = .work
  · subst ha
    obtain ⟨⟨u, ms⟩, hwork, rfl⟩ := Option.map_eq_some_iff.mp h
    cases hw : s.worker with
    | taking post =>
      have hn : s.returned? .work = none := returned?_work (by simp [hw])
      simp only [work, hw] at hwork
      split at hwork
      · cases hwork
        refine .rests hn ?_ ?_
        · rw [session_take]
        · rw [engine_take]
      · split at hwork
        · cases hwork
          exact .rests hn rfl rfl
        · cases hwork
    | serving post call r =>
      simp only [work, hw] at hwork
      cases hwork
      exact serve_breakpointStep hs hw
    | running r execution closing =>
      have hn : s.returned? .work = none := returned?_work (by simp [hw])
      simp only [work, hw] at hwork
      have hsettings : u.session.settings = s.session.settings := by rw [session_run hwork]
      have hengine := engine_run hwork
      cases hl : r.looks s.interrupts with
      | false =>
        refine .rests hn hsettings ?_
        rw [hengine]
        exact (Script.next_quiet catalog s.engine hl).registered
      | true =>
        obtain ⟨script, stepping, p, rfl, hi⟩ := Script.Run.exists_of_looks hl
        refine .looks hn hsettings ⟨rfl, ⟨execution, closing, hw⟩, hi⟩ ?_
        rw [hengine]
        exact (Script.next_checking catalog s.engine script stepping p hi).2
    | halting halt k execution =>
      have hn : s.returned? .work = none := returned?_work (by simp [hw])
      simp only [work, hw] at hwork
      cases hwork
      obtain ⟨hsettings, hengine⟩ := tellHalt_settings s halt k execution
      exact .rests hn hsettings (congrArg _ hengine)
    | completing outcome execution closing =>
      have hn : s.returned? .work = none := returned?_work (by simp [hw])
      simp only [work, hw] at hwork
      cases hwork
      cases closing with
      | false => exact .rests hn (Session.settings_complete _ outcome) rfl
      | true =>
        refine .rests hn ?_ ?_
        · exact (congrArg _ (session_close _ false)).trans (Session.settings_complete _ outcome)
        · exact congrArg _ (engine_close _ false)
    | exiting crashed =>
      have hn : s.returned? .work = none := returned?_work (by simp [hw])
      simp only [work, hw] at hwork
      cases hwork
      exact .rests hn (Session.settings_exit _ crashed) rfl
    | exited => simp [work, hw] at hwork
  · have he : t.engine = s.engine := (Prod.mk.inj (thread_step ha h)).1
    exact .rests (returned?_client ha) (settings_step ha h) (congrArg _ he)

end

end System

theorem Matched.map {entries : Registered} {stored : List Script.Breakpoint}
    (h : Matched entries stored) {f : Script.Breakpoint → Script.Breakpoint}
    (hf : ∀ b, ∃ hits, f b = { b with hits }) : Matched entries (stored.map f) := by
  obtain ⟨order, hm, hp⟩ := h
  refine ⟨order.map f, List.forall₂_map_right_iff.mpr (hm.imp fun entry b he => ?_), hp.map f⟩
  obtain ⟨hits, hb⟩ := hf b
  rw [hb]
  exact ⟨he.id, he.verified, he.place, he.condition, he.hitCount⟩

section

variable {s t : Script.State} {script : Script.Loaded} {p : Script.Point}

theorem Script.State.Ordered.looked (h : s.Ordered)
    (ht : t.registered = (s.looked script p).2.registered) : t.Ordered := by
  rw [Ordered, (ids_looked ht).1]
  exact h

theorem Registry.Synced.same {r : Registry} (h : r.Synced s) (ht : t.registered = s.registered) :
    r.Synced t := by
  obtain ⟨hb, hl⟩ := Prod.mk.inj ht
  exact { h with
    matched := hb ▸ h.matched
    distinct := hb ▸ h.distinct
    stored := Script.State.Numbered.same h.stored ht }

theorem Registry.Synced.looked {r : Registry} (h : r.Synced s)
    (ht : t.registered = (s.looked script p).2.registered) : r.Synced t := by
  obtain ⟨hb, -⟩ := Prod.mk.inj (ht.trans (s.registered_looked script p))
  refine { h with matched := ?_, distinct := ?_, stored := ?_ }
  · rw [hb]
    exact h.matched.map (s.reached_fst script p)
  · rw [(Script.State.ids_looked ht).1]
    exact h.distinct
  · exact Script.State.Numbered.looked h.stored ht

end

namespace Leg

variable {legs : List (Leg E)} {x : Leg E} {home : Home} {b : Breakpoint}

/-- The call that is answered in the step, and the breakpoints that it returns. -/
def returned? (x : Leg E) : Option (BreakpointCall × List Breakpoint) :=
  x.before.returned? x.action

/-- The breakpoint was returned in one of the steps, and no call that was answered later replaces
it. -/
def LastReturned (home : Home) (legs : List (Leg E)) (b : Breakpoint) : Prop :=
  ∃ earlier x later call list, legs = earlier ++ x :: later ∧ x.returned? = some (call, list) ∧
    b ∈ list ∧ ∀ y ∈ later, ∀ call list, y.returned? = some (call, list) →
      call.replaces home b = false

theorem lastReturned_snoc : LastReturned home (legs ++ [x]) b ↔
    (∃ call list, x.returned? = some (call, list) ∧ b ∈ list) ∨
      (LastReturned home legs b ∧ ∀ call list, x.returned? = some (call, list) →
        call.replaces home b = false) := by
  constructor
  · rintro ⟨earlier, y, later, call, list, hl, hy, hb, hlater⟩
    rcases append_cons_eq_snoc hl.symm with ⟨rfl, rfl, rfl⟩ | ⟨rest, rfl, rfl⟩
    · exact .inl ⟨call, list, hy, hb⟩
    · rw [List.forall_mem_append] at hlater
      exact .inr ⟨⟨earlier, y, rest, call, list, rfl, hy, hb, hlater.1⟩,
        hlater.2 x (List.mem_singleton_self x)⟩
  · rintro (⟨call, list, hx, hb⟩ | ⟨⟨earlier, y, later, call, list, rfl, hy, hb, hlater⟩, hx⟩)
    · exact ⟨legs, x, [], call, list, rfl, hx, hb, List.forall_mem_nil _⟩
    · refine ⟨earlier, y, later ++ [x], call, list, by simp, hy, hb, ?_⟩
      exact List.forall_mem_append.mpr ⟨hlater, List.forall_mem_singleton.mpr hx⟩

end Leg

namespace System

variable {catalog : Script.Catalog} {s t : System (scriptEngine catalog)}
  {legs : List (Leg (scriptEngine catalog))} {around : Surroundings} {engine : Script.State}
  {interrupts : Interrupts}

/-- How the breakpoints of a session stand after some steps. -/
structure Standing (around : Surroundings) (legs : List (Leg (scriptEngine catalog)))
    (t : System (scriptEngine catalog)) : Prop where
  surroundings : t.session.around = around
  synced : t.session.registry.Synced t.engine
  ordered : t.engine.Ordered
  set : ∀ b, b ∈ t.session.registry.breakpoints ↔ Leg.LastReturned around.home legs b

theorem Standing.step (h : Standing around legs s) {a : Action} (hs : s.step a = some t) :
    Standing around (legs ++ [⟨s, a, t⟩]) t := by
  -- A step that returns nothing leaves what was returned last.
  have unreturned (hn : s.returned? a = none) (hr : t.session.registry = s.session.registry)
      (b : Breakpoint) : b ∈ t.session.registry.breakpoints ↔
        Leg.LastReturned around.home (legs ++ [⟨s, a, t⟩]) b := by
    rw [hr, h.set, Leg.lastReturned_snoc]
    simp [Leg.returned?, hn]
  cases breakpointStep h.synced hs with
  | rests hn settings registered =>
    obtain ⟨ha, hr⟩ := Prod.mk.inj settings
    exact ⟨ha.trans h.surroundings, hr ▸ h.synced.same registered, h.ordered.same registered,
      unreturned hn hr⟩
  | looks hn settings looks registered =>
    obtain ⟨ha, hr⟩ := Prod.mk.inj settings
    exact ⟨ha.trans h.surroundings, hr ▸ h.synced.looked registered, h.ordered.looked registered,
      unreturned hn hr⟩
  | @returns call list returned ha replaced =>
    refine ⟨ha.trans h.surroundings, replaced.synced, replaced.ordered h.ordered, fun b => ?_⟩
    have hx : Leg.returned? ⟨s, a, t⟩ = some (call, list) := returned
    rw [replaced.breakpoints, Leg.lastReturned_snoc, h.surroundings, h.set, hx]
    simp

/-- Whatever clients and the engine do, and in whatever order: registry and engine are in step, and
the breakpoints that are set are those that were returned last. -/
theorem Course.standing (hb : engine.breakpoints = [])
    (h : (opened around engine interrupts : System (scriptEngine catalog)).Course legs t) :
    Standing around legs t := by
  induction h with
  | rest =>
    refine ⟨rfl, .empty 0 hb, ?_, fun b => ?_⟩
    · simp [opened, Script.State.Ordered, hb]
    · simp [opened, Registry.mem_breakpoints, Leg.LastReturned]
  | step a _ hs ih => exact ih.step hs

end System
end Stepwise
