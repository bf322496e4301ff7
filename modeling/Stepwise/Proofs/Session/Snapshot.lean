import Stepwise.Proofs.Script.Activations
import Stepwise.Proofs.Script.Working
import Stepwise.Proofs.Session.Depicting
import Stepwise.Proofs.Session.Standing

namespace Stepwise

variable {E : Engine}

namespace Script

theorem Steady.perform (home : Home) (r : Registry) (call : BreakpointCall) :
    Steady (call.perform context home r) := by
  cases call with
  | setLine path requests => exact .setLine home path requests r
  | setCommands requests => exact .setCommands requests r
  | removeAll => exact (removeAll r).bind fun _ => .pure _

theorem Working.of_inquiry {α : Type} {m : EngineM State (Except EngineError α)}
    (h : Inquiry context m) : Working m := by
  cases h with
  | listVariables scope => exact .observing (.listVariables scope)
  | lookupVariable scope name => exact .observing (.lookupVariable scope name)
  | children reference => exact .observing (.children reference)
  | evaluate scope expression => exact .observing (.evaluate scope expression)
  | coerce value type => exact .observing (.coerce value type)
  | assign scope name value => exact .assign scope name value

end Script

/-- Whatever clients request, it changes no more than telling and storing values does. -/
theorem Request.serve_fixed {β : Type} {f : Script.State → β} (hf : Script.State.Fixed f)
    (r : Request) (home : Home) (s : Session) (e : Script.State) :
    f (((r.serve Script.context home).run.run s).run e).2 = f e := by
  cases hc : r.call? with
  | some call =>
    obtain ⟨_, u, hperform, hu⟩ := Script.Steady.perform home s.registry call e
    obtain ⟨_, _, _, hr, _, _, _, _, rfl⟩ := r.serve_call hc hperform
    rw [hr]
    exact hf.alike hu.alike
  | none =>
    exact ((r.inspects hc Script.context home).leads
      (R := fun e u : Script.State => f u = f e) (fun _ => rfl) (fun h h' => h'.trans h)
      (fun hm e => (Script.Working.of_inquiry hm).fixed hf e) s e).1

theorem Script.listed_of_callStack {s t : Script.State} {stack : List EngineFrame}
    (h : Script.context.callStack.run s = (some stack, t)) :
    stack = s.frames.map Script.Frame.listed :=
  (Option.some.inj (Prod.mk.inj ((Script.observe_returns _).symm.trans h)).1).symm

theorem Script.Run.Activated.same {run : Script.Run} {s t : Script.State} (h : run.Activated s)
    (ht : t.paths = s.paths) : run.Activated t := by
  cases run with
  | launching source => trivial
  | running script stepping tasks => exact ht.trans h
  | checking script stepping p => exact ht.trans h
  | resumed script p depth action => exact ht.trans h

namespace System

variable {catalog : Script.Catalog} {s t : System (scriptEngine catalog)} {around : Surroundings}
  {engine : Script.State} {interrupts : Interrupts}

/-- The engine has the frames of the run that the thread is busy with; where that one has halted,
the innermost frame is at the line of the halt. -/
structure Activated (s : System (scriptEngine catalog)) : Prop where
  run : s.worker.Keeps fun _ run => Script.Run.Activated s.engine run
  top : ∀ halt k execution, s.worker = .halting halt k execution →
    ∃ f rest, s.engine.frames = f :: rest ∧ f.line = halt.line ∧ f.path = halt.scriptPath

theorem serve_fixed {β : Type} {f : Script.State → β} (hf : Script.State.Fixed f)
    (s : System (scriptEngine catalog)) (post : Post (scriptEngine catalog).Run) (call : Nat)
    (r : Request) : f (s.serve post call r).engine = f s.engine := by
  have hr := r.serve_fixed hf s.session.around.home s.session s.engine
  unfold serve
  split
  · rfl
  rcases hrun : ((r.serve (scriptEngine catalog).context s.session.around.home).run.run
      s.session).run s.engine with ⟨_ | ⟨result, session⟩, u⟩
  · rw [show ((r.serve Script.context _).run.run s.session).run s.engine = _ from hrun] at hr
    dsimp only
    rw [engine_crash]
    exact hr
  · rw [show ((r.serve Script.context _).run.run s.session).run s.engine = _ from hrun] at hr
    exact hr

theorem run_step (h : s.Activated) {a : Action} (hs : s.step a = some t) :
    t.worker.Keeps fun _ run => Script.Run.Activated t.engine run := by
  have hrun := h.run
  by_cases ha : a = .work
  · subst ha
    obtain ⟨⟨u, ms⟩, hwork, rfl⟩ := Option.map_eq_some_iff.mp hs
    unfold work at hwork
    cases hw : s.worker with
    | taking post =>
      rw [hw] at hrun hwork
      dsimp only at hwork
      split at hwork
      · cases hwork
        rw [engine_take]
        exact keeps_take (E := scriptEngine catalog) rfl hrun fun _ _ _ => trivial
      · split at hwork <;> cases hwork
        exact hrun
    | serving post call r =>
      rw [hw] at hrun hwork
      cases hwork
      have hpost : post.Keeps fun _ run => Script.Run.Activated (s.serve post call r).engine run :=
        Post.Keeps.imp hrun fun _ _ hrun =>
          hrun.same (serve_fixed Script.State.paths_fixed s post call r)
      exact keeps_serve (E := scriptEngine catalog) call r hpost
    | running r execution closing =>
      rw [hw] at hrun hwork
      rw [engine_run hwork]
      exact keeps_run (Script.activated_next hrun s.interrupts) hwork
    | halting halt k execution =>
      rw [hw] at hrun hwork
      cases hwork
      rw [(tellHalt_settings s halt k execution).2]
      exact keeps_tellHalt (E := scriptEngine catalog) halt hrun
    | completing outcome execution closing =>
      rw [hw] at hwork
      cases hwork
      cases closing <;> trivial
    | exiting crashed =>
      rw [hw] at hwork
      cases hwork
      trivial
    | exited =>
      rw [hw] at hwork
      cases hwork
  · obtain ⟨he, hw⟩ := Prod.mk.inj (thread_step ha hs)
    rw [hw, he]
    exact hrun

theorem top_step (h : s.Activated) {a : Action} (hs : s.step a = some t) {halt : Halt}
    {k : Resume → (scriptEngine catalog).Run} {execution : Nat}
    (ht : t.worker = .halting halt k execution) :
    ∃ f rest, t.engine.frames = f :: rest ∧ f.line = halt.line ∧ f.path = halt.scriptPath := by
  by_cases ha : a = .work
  · subst ha
    obtain ⟨r, hw, hn, _⟩ := halting_work hs ht
    obtain ⟨⟨u, ms⟩, hwork, rfl⟩ := Option.map_eq_some_iff.mp hs
    have hrun := h.run
    rw [hw] at hrun
    simp only [work, hw] at hwork
    rw [engine_run hwork]
    exact Script.top_of_halted hrun (Prod.ext hn rfl)
  · obtain ⟨he, hw⟩ := Prod.mk.inj (thread_step ha hs)
    rw [he]
    exact h.top halt k execution (hw ▸ ht)

theorem activated_reaches (h : Reaches (opened around engine interrupts) s) : s.Activated := by
  induction h with
  | refl => exact ⟨trivial, nofun⟩
  | step a _ hs ih => exact ⟨run_step ih hs, fun _ _ _ ht => top_step ih hs ht⟩

/-- The innermost frame is shown where the stop is. -/
theorem first_of_hold {halt : Halt} {k : Resume → (scriptEngine catalog).Run} {execution : Nat}
    (h : s.Activated) (hw : s.worker = .halting halt k execution) {stack : List EngineFrame}
    (hstack : (scriptEngine catalog).context.callStack.run s.engine = (some stack, t.engine))
    {u : Session} {frames : List StackFrame}
    (hd : u.Depicts s.session.around.workspace halt.remote stack frames) :
    ∃ first rest, frames = first :: rest ∧ first.line = (s.session.stoppedEvent halt).line ∧
      first.scriptPath = (s.session.stoppedEvent halt).scriptPath := by
  obtain ⟨f, rest, hf, hline, hpath⟩ := h.top halt k execution hw
  have hfirst : stack[0]? = some f.listed := by simp [Script.listed_of_callStack hstack, hf]
  obtain ⟨g, hg, hshown⟩ := hd.depicted.frame 0 _ hfirst
  cases frames with
  | nil => cases hg
  | cons shown others =>
    obtain rfl := Option.some.inj hg
    refine ⟨shown, others, rfl, hshown.line.trans hline, ?_⟩
    rw [hshown.scriptPath, Script.Frame.listed, hpath]
    rfl

/-- Whatever the engine is: from a stop on, and as long as it lasts, clients are given the call
stack that the engine has there, frame by frame, with handles that are good.  A script is shown in
the line of the stop. -/
theorem Course.stops_depicted :
    (∀ (E : Engine) (surroundings : Surroundings) (engine : E.State) (interrupts : Interrupts)
      (past : List (Leg E)) (z : Leg E) (since : List (Leg E)) (t : System E)
      (event : StoppedEvent),
      (opened surroundings engine interrupts : System E).Course (past ++ z :: since) t →
      z.stop? = some event → (∀ y ∈ since, y.InStop) →
      ∃ stack, E.context.callStack.run z.before.engine = (some stack, z.after.engine) ∧
        (4 * stack.length ≤ 2 ^ 20 - 1 → ∃ frames,
          t.atOnce .stackFrames = (.ok (.frames frames), t) ∧
          t.session.Depicts surroundings.workspace event.isRemoteSession stack frames ∧
          (frames.flatMap (·.scopes.handles)).length = 4 * stack.length)) ∧
    ∀ (catalog : Script.Catalog) (surroundings : Surroundings) (engine : Script.State)
      (interrupts : Interrupts) (past : List (Leg (scriptEngine catalog)))
      (z : Leg (scriptEngine catalog)) (since : List (Leg (scriptEngine catalog)))
      (t : System (scriptEngine catalog)) (event : StoppedEvent),
      (opened surroundings engine interrupts : System (scriptEngine catalog)).Course
        (past ++ z :: since) t →
      z.stop? = some event → (∀ y ∈ since, y.InStop) →
      4 * z.before.engine.frames.length ≤ 2 ^ 20 - 1 → ∃ first rest,
        t.atOnce .stackFrames = (.ok (.frames (first :: rest)), t) ∧
        first.line = event.line ∧ first.scriptPath = event.scriptPath := by
  have bounded {n : Nat} (hn : 4 * n ≤ 2 ^ 20 - 1) : 4 * n < Handle.indexBound := by
    simp only [Handle.indexBound]
    omega
  have asked {E : Engine} {t : System E} {frames : List StackFrame}
      (ht : t.session.stackFrames = .ok frames) :
      t.atOnce .stackFrames = (.ok (.frames frames), t) := by
    rw [atOnce, ht]
    rfl
  refine ⟨?_, ?_⟩
  · intro E surroundings engine interrupts past z since t event h hz hin
    obtain ⟨stack, hstack, hd⟩ := h.depicts hz hin
    refine ⟨stack, hstack, fun hn => ?_⟩
    obtain ⟨frames, hd⟩ := hd (bounded hn)
    refine ⟨frames, asked hd.told, hd, ?_⟩
    rw [← hd.depicted.length]
    simp [List.length_flatMap, FrameScopes.handles, Nat.mul_comm]
  · intro catalog surroundings engine interrupts past z since t event h hz hin hn
    obtain ⟨hpast, hs, _⟩ := h.split
    have hr := hpast.reaches (.refl _)
    obtain ⟨halt, k, execution, _, hw, _, _, rfl⟩ := exists_hold hr hs hz
    obtain ⟨stack, hstack, hd⟩ := h.depicts hz hin
    rw [← List.length_map Script.Frame.listed, ← Script.listed_of_callStack hstack] at hn
    obtain ⟨frames, hd⟩ := hd (bounded hn)
    have htold := asked hd.told
    rw [← hpast.around] at hd
    obtain ⟨shown, rest, rfl, hshown⟩ := first_of_hold (activated_reaches hr) hw hstack hd
    exact ⟨shown, rest, htold, hshown⟩

/-- A stop in a function: its frame is shown first, in the line of the stop, and then that of the
script in the line of the call. -/
theorem Course.stops_depicted_in_function :
    ∃ (catalog : Script.Catalog) (past : List (Leg (scriptEngine catalog))) (z : Leg _)
      (t : System _) (event : StoppedEvent) (shown : StackFrame) (rest : List StackFrame),
      (opened { home := .at ⟨"/"⟩ } (Script.State.initial [] []) {}).Course (past ++ [z]) t ∧
      z.stop? = some event ∧
      t.atOnce .stackFrames = (.ok (.frames (shown :: rest)), t) ∧
      (shown :: rest).map (fun f => (f.functionName, f.line)) =
        [("inner", 7), ("<ScriptBlock>", 3)] ∧
      ((shown :: rest).flatMap (·.scopes.handles)).Nodup ∧
      shown.line = event.line ∧ shown.scriptPath = event.scriptPath := by
  have ht : ((opened { home := .at ⟨"/"⟩ } (Script.State.initial [] []) {} :
      System (scriptEngine { files := [(⟨"/nest.ps1"⟩,
        { body := [.call 3 "inner" []], functions := [("inner", [.command 7 "Tick"])] },
        false)] })).travel
      (asking 0 (.setCommandBreakpoints [{ name := "tick" }]) ++
        [.begin (.execute (.file ⟨"/nest.ps1"⟩ [])) false, .advance 1, .work, .work, .work, .work,
          .work, .work, .work])).any
      (fun way => way.1.getLast?.any fun leg => leg.stop?.isSome &&
        leg.before.engine.frames.map (fun f => (f.functionName, f.line)) ==
          [("inner", 7), ("<ScriptBlock>", 3)]) = true := by cbv
  obtain ⟨legs, t, hc, hp⟩ := Course.exists_of_travel ht
  obtain ⟨z, hz, hend⟩ := (Option.any_eq_true _ _).mp hp
  obtain ⟨past, rfl⟩ := List.getLast?_eq_some_iff.mp hz
  simp only [Bool.and_eq_true, beq_iff_eq] at hend
  obtain ⟨hstop, hframes⟩ := hend
  obtain ⟨event, hevent⟩ := Option.isSome_iff_exists.mp hstop
  have hn : 4 * z.before.engine.frames.length ≤ 2 ^ 20 - 1 := by
    have hl := congrArg List.length hframes
    rw [List.length_map] at hl
    simp [hl]
  obtain ⟨shown, rest, htold, hfirst⟩ :=
    stops_depicted.2 _ _ _ _ past z [] t event hc hevent (List.forall_mem_nil _) hn
  obtain ⟨stack, hstack, hd⟩ :=
    stops_depicted.1 _ _ _ _ past z [] t event hc hevent (List.forall_mem_nil _)
  obtain rfl := Script.listed_of_callStack hstack
  obtain ⟨frames, htold', hd, _⟩ := hd (by rwa [List.length_map])
  obtain rfl : frames = shown :: rest := by simpa [htold] using htold'.symm
  refine ⟨_, past, z, t, event, shown, rest, hc, hevent, htold, ?_, hd.nodup, hfirst⟩
  rw [hd.depicted.map_eq (q := fun f => (f.functionName, f.line))
    fun i f g hg => by rw [hg.functionName, hg.line], List.map_map]
  exact hframes

end System
end Stepwise
