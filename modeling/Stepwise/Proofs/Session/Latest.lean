import Stepwise.Proofs.Breakpoint.Scoped
import Stepwise.Proofs.Session.Conversation
import Stepwise.Proofs.Session.Standing

namespace Stepwise
open EngineM

variable {E : Engine}

namespace BreakpointCall

/-- Whether the call changes the breakpoints of a scope. -/
def concerns (home : Home) (call : BreakpointCall) (scope : BreakpointScope) : Bool :=
  (call.scope? home).all (·.same scope)

end BreakpointCall

namespace Leg

variable {home : Home} {scope : BreakpointScope} {legs : List (Leg E)} {x : Leg E}

/-- What the latest call that concerned the scope returned; at first there is nothing. -/
def latest (home : Home) (scope : BreakpointScope) (legs : List (Leg E)) : List Breakpoint :=
  let answers := legs.filterMap (·.returned?)
  ((answers.filter fun (call, _) => call.concerns home scope).getLast?.map Prod.snd).getD []

theorem latest_of_unreturned (h : x.returned? = none) :
    latest home scope (legs ++ [x]) = latest home scope legs := by
  simp only [latest, List.filterMap_append, List.filterMap_cons_none h, List.filterMap_nil,
    List.append_nil]

theorem latest_of_returned {call : BreakpointCall} {list : List Breakpoint}
    (h : x.returned? = some (call, list)) :
    latest home scope (legs ++ [x]) =
      if call.concerns home scope then list else latest home scope legs := by
  simp only [latest, List.filterMap_append, List.filterMap_cons_some h, List.filterMap_nil,
    List.filter_append, List.filter_cons, List.filter_nil]
  split
  · rw [List.getLast?_concat]
    rfl
  · rw [List.append_nil]

end Leg

/-- A call leaves in each scope that it concerns what it returns. -/
theorem Registry.Synced.list_perform {r next : Registry} {s t : Script.State} (h : r.Synced s)
    {home : Home} {call : BreakpointCall} {list : List Breakpoint}
    (hr : Returns (call.perform Script.context home r) s (list, next) t) (scope : BreakpointScope) :
    next.list scope = if call.concerns home scope then list else r.list scope := by
  cases hc : call.scope? home with
  | some own =>
    obtain ⟨list', next', t', hr', hsets⟩ := h.sets hc
    cases (hr.unique hr').1
    rw [hsets.listed, BreakpointCall.concerns, hc]
    rfl
  | none =>
    cases call with
    | removeAll =>
      obtain ⟨u, hu, -⟩ := h.removeAll
      cases (hr.unique (hu.bind (.pure _ _))).1
      cases scope <;> rfl
    | setLine | setCommands => cases hc

namespace System

variable {catalog : Script.Catalog} {s t : System (scriptEngine catalog)}
  {legs : List (Leg (scriptEngine catalog))} {around : Surroundings} {engine : Script.State}
  {interrupts : Interrupts}

/-- A step that returns breakpoints performs the call. -/
theorem performs_of_returned (hs : s.session.registry.Synced s.engine) {a : Action}
    (h : s.step a = some t) {call : BreakpointCall} {list : List Breakpoint}
    (hr : s.returned? a = some (call, list)) :
    Returns (call.perform Script.context s.session.around.home s.session.registry) s.engine
      (list, t.session.registry) t.engine := by
  by_cases ha : a = .work
  · subst ha
    cases hw : s.worker with
    | serving post id r =>
      obtain ⟨⟨u, ms⟩, hwork, rfl⟩ := Option.map_eq_some_iff.mp h
      simp only [work, hw] at hwork
      cases hwork
      have hp : s.poisoned = false := by
        refine Bool.eq_false_iff.mpr fun hp => ?_
        simp [returned?, answered?, hw, served, hp] at hr
      cases hc : r.call? with
      | some c =>
        obtain ⟨list', hr', -, hperform⟩ := serve_performs hs hp hw hc
        cases hr.symm.trans hr'
        exact hperform
      | none => cases hr.symm.trans (returned?_serving hw hc)
    | _ => cases hr.symm.trans (returned?_work (by simp [hw]))
  · cases hr.symm.trans (returned?_client ha)

/-- How the calls of a session act after some steps. -/
structure CallsScoped (around : Surroundings) (legs : List (Leg (scriptEngine catalog)))
    (t : System (scriptEngine catalog)) : Prop where
  /-- A call for a scope returns, sets the breakpoints of the scope and touches nothing else. -/
  sets : ∀ call scope, BreakpointCall.scope? around.home call = some scope →
    ∃ list next u,
      Returns (call.perform Script.context around.home t.session.registry) t.engine (list, next) u ∧
      Registry.Sets scope (call.asked around.home) t.session.registry t.engine list next u
  /-- What clients were returned so far are results of calls. -/
  performed : ∀ x ∈ legs, ∀ call list, x.returned? = some (call, list) →
    Returns (call.perform Script.context around.home x.before.session.registry) x.before.engine
      (list, x.after.session.registry) x.after.engine
  lists : ∀ scope, t.session.registry.list scope = Leg.latest around.home scope legs
  /-- All breakpoints are the lists of different files, in the order of their paths, and then the
  list of the commands. -/
  all : ∃ files : List Path, files.Pairwise (fun p q => q.precedes p = false) ∧
    (∀ path, Leg.latest around.home (.file path) legs ≠ [] → ∃ p ∈ files, p.same path = true) ∧
    (t.atOnce .breakpoints).1 = .ok (.breakpoints
      (files.flatMap (fun p => Leg.latest around.home (.file p) legs) ++
        Leg.latest around.home .commands legs))

theorem list_step (hs : s.session.registry.Synced s.engine) {a : Action} (h : s.step a = some t)
    {home : Home} (hh : s.session.around.home = home) (scope : BreakpointScope)
    (hlist : s.session.registry.list scope = Leg.latest home scope legs) :
    t.session.registry.list scope = Leg.latest home scope (legs ++ [⟨s, a, t⟩]) := by
  cases hr : Leg.returned? ⟨s, a, t⟩ with
  | none =>
    have hregistry : t.session.registry = s.session.registry := by
      cases breakpointStep hs h with
      | rests _ settings _ => exact (Prod.mk.inj settings).2
      | looks _ settings _ _ => exact (Prod.mk.inj settings).2
      | returns returned _ _ => cases hr.symm.trans returned
    rw [hregistry, hlist]
    exact (Leg.latest_of_unreturned hr).symm
  | some answer =>
    obtain ⟨call, list⟩ := answer
    have hperform := performs_of_returned hs h hr
    rw [hh] at hperform
    rw [hs.list_perform hperform scope, hlist]
    exact (Leg.latest_of_returned hr).symm

/-- What is in a list of the registry is what the latest call for its scope returned. -/
theorem Course.list_eq_latest (hb : engine.breakpoints = [])
    (h : (opened around engine interrupts : System (scriptEngine catalog)).Course legs t)
    (scope : BreakpointScope) :
    t.session.registry.list scope = Leg.latest around.home scope legs := by
  induction h with
  | rest => cases scope <;> rfl
  | step a hc hs ih =>
    have hstanding := hc.standing hb
    exact list_step hstanding.synced hs (congrArg (·.home) hstanding.surroundings) scope ih

/-- Whatever clients and the engine do, and in whatever order: setting the breakpoints of a file,
however it is spelled, or of the commands replaces those and touches nothing else, and all
breakpoints are what the latest call for each scope returned. -/
theorem Course.calls_scoped (hb : engine.breakpoints = [])
    (h : (opened around engine interrupts : System (scriptEngine catalog)).Course legs t) :
    CallsScoped around legs t ∧
      (∀ folder, around.home = .at folder → folder.IsHome → ∀ rest,
        (around.home.expandHome ⟨"~/" ++ rest⟩).same
            (around.home.expandHome ⟨folder.text ++ "/" ++ rest⟩) = true ∧
          (around.home.expandHome ⟨"~/" ++ rest⟩).same
            (around.home.expandHome ⟨folder.text ++ "//" ++ rest⟩) = true) := by
  have hstanding := h.standing hb
  have hlists := h.list_eq_latest hb
  refine ⟨⟨fun call scope hc => hstanding.synced.sets hc, ?_, hlists, ?_⟩,
    fun folder hf hh rest => hf ▸ hh.same_below rest⟩
  · intro x hx call list hr
    obtain ⟨past, later, rfl⟩ := List.append_of_mem hx
    obtain ⟨hpast, hs, -⟩ := h.split
    have hbefore := hpast.standing hb
    have hperform := performs_of_returned hbefore.synced hs hr
    rwa [hbefore.surroundings] at hperform
  · obtain ⟨files, hsorted, hall, hbreakpoints⟩ :=
      Registry.breakpoints_eq_lists hstanding.synced.separate
    simp only [hlists] at hall hbreakpoints
    exact ⟨files, hsorted, hall, by rw [← hbreakpoints]; rfl⟩

/-- A file that is set under three spellings, with a request that is refused, and a command. -/
theorem Course.calls_scoped_spelled :
    ∃ (legs : List (Leg (scriptEngine {}))) (t : System (scriptEngine {})),
      (opened { home := .at ⟨"/h"⟩ } (Script.State.initial [] []) {}).Course legs t ∧
      t.session.registry.breakpoints.map (fun b => (b.id, b.line, b.name)) =
        [(some 3, some 4, none), (some 4, some 7, none), (none, some 1, none),
          (some 5, none, some "tick")] ∧
      CallsScoped { home := .at ⟨"/h"⟩ } legs t ∧
      ((Home.at ⟨"/h"⟩).expandHome ⟨"~/" ++ "a"⟩).same
        ((Home.at ⟨"/h"⟩).expandHome ⟨"/h" ++ "//" ++ "a"⟩) = true := by
  have ht : ((opened { home := .at ⟨"/h"⟩ } (Script.State.initial [] []) {} :
      System (scriptEngine {})).travel
      (asking 0 (.setLineBreakpoints ⟨"~/a"⟩ [{ line := 9 }]) ++
        asking 1 (.setLineBreakpoints ⟨"/h/a"⟩ [{ line := 2 }]) ++
        asking 2 (.setLineBreakpoints ⟨"/h//a"⟩
          [{ line := 7 }, { line := 1, hitCondition := some "0" }, { line := 4 }]) ++
        asking 3 (.setCommandBreakpoints [{ name := "tick" }]))).any
      (fun way => way.2.session.registry.breakpoints.map (fun b => (b.id, b.line, b.name)) ==
        [(some 3, some 4, none), (some 4, some 7, none), (none, some 1, none),
          (some 5, none, some "tick")]) = true := by cbv
  obtain ⟨legs, t, hc, hp⟩ := Course.exists_of_travel ht
  have hb : (Script.State.initial [] []).breakpoints = [] := rfl
  have home : Path.IsHome ⟨"/h"⟩ := .of_isAbsolute (Path.isAbsolute_iff.mpr ⟨['h'], rfl⟩)
  obtain ⟨hscoped, hspelled⟩ := hc.calls_scoped hb
  exact ⟨legs, t, hc, beq_iff_eq.mp hp, hscoped, (hspelled _ rfl home "a").2⟩

end System
end Stepwise
