import Stepwise.Proofs.Session.Generations
import Stepwise.Proofs.Session.Holding

namespace Stepwise

namespace HandleTable

variable {t u : HandleTable}

theorem Numbered.nodup_handles (ht : t.Numbered) : t.handles.Nodup := by
  refine List.Nodup.map_on ?_ List.nodup_range
  intro i hi j hj he
  have hi := ht.index_lt (List.mem_range.mp hi)
  have hj := ht.index_lt (List.mem_range.mp hj)
  have hx := congrArg Handle.index he
  rw [Handle.index_of ht.generation_lt hi, Handle.index_of ht.generation_lt hj] at hx
  omega

/-- The second table has issued some handles after those of the first one. -/
structure Issues (t u : HandleTable) (l : List Handle) : Prop where
  numbered : u.Numbered
  grows : t.Extends u
  handles : u.handles = t.handles ++ l
  size : u.containers.size = t.containers.size + l.length

theorem Issues.trans {v : HandleTable} {l m : List Handle} (h : t.Issues u l) (h' : u.Issues v m) :
    t.Issues v (l ++ m) := by
  refine ⟨h'.numbered, h.grows.trans h'.grows, ?_, ?_⟩
  · rw [h'.handles, h.handles, List.append_assoc]
  · rw [h'.size, h.size, List.length_append, Nat.add_assoc]

theorem allocate_issues (ht : t.Numbered) (c : Container)
    (room : t.containers.size + 1 < Handle.indexBound) :
    ∃ h u, t.allocate c = (some h, u) ∧ t.Issues u [h] ∧ u.Opens h c.kind := by
  rcases allocate_spec ht c with ⟨h, ha, hn, hx, ho⟩ | ⟨hf, _⟩
  · refine ⟨h, _, ha, ⟨hn, hx, ?_, by simp⟩, ho⟩
    rcases t.allocate_cases c with ⟨_, he⟩ | ⟨hf, _⟩
    · obtain ⟨hh, _⟩ := Prod.mk.inj (ha.symm.trans he)
      cases hh
      simp [handles, List.range_succ]
    · exact absurd room (Nat.not_lt.mpr hf)
  · exact absurd room (Nat.not_lt.mpr hf)

end HandleTable

/-- The frame shows the engine's frame of a number; its handles are of the table. -/
structure StackFrame.Depicts (g : StackFrame) (w : Workspace) (remote : Bool) (t : HandleTable)
    (i : Nat) (f : EngineFrame) : Prop where
  index : g.index = i
  functionName : g.functionName = f.functionName
  line : g.line = f.line
  column : g.column = f.column
  scriptPath : g.scriptPath = (w.clientPath f.scriptPath remote).1
  scopes : g.scopes.Open t i

theorem StackFrame.Depicts.mono {g : StackFrame} {w : Workspace} {remote : Bool}
    {t u : HandleTable} {i : Nat} {f : EngineFrame} (h : g.Depicts w remote t i f)
    (hx : t.Extends u) : g.Depicts w remote u i f :=
  { h with scopes := h.scopes.mono hx }

namespace Session

variable {s : Session} {t : HandleTable} {index : Nat} {w : Workspace} {remote : Bool}

theorem allocateScopes_issues (ht : t.Numbered) (index : Nat)
    (room : t.containers.size + 4 < Handle.indexBound) :
    ∃ scopes u, allocateScopes t index = (some scopes, u) ∧ t.Issues u scopes.handles ∧
      scopes.Open u index := by
  obtain ⟨auto, t₁, h₁, hi₁, ho₁⟩ :=
    HandleTable.allocate_issues ht (.ofScope "Auto" (.locals index) .auto) (by omega)
  have hs₁ := hi₁.size
  simp only [List.length_singleton] at hs₁
  obtain ⟨locals, t₂, h₂, hi₂, ho₂⟩ :=
    HandleTable.allocate_issues hi₁.numbered (.ofScope "Local" (.locals index) .all) (by omega)
  have hs₂ := hi₂.size
  simp only [List.length_singleton] at hs₂
  obtain ⟨script, t₃, h₃, hi₃, ho₃⟩ :=
    HandleTable.allocate_issues hi₂.numbered (.ofScope "Script" (.script index) .all) (by omega)
  have hs₃ := hi₃.size
  simp only [List.length_singleton] at hs₃
  obtain ⟨global, t₄, h₄, hi₄, ho₄⟩ :=
    HandleTable.allocate_issues hi₃.numbered (.ofScope "Global" .global .all) (by omega)
  refine ⟨⟨auto, locals, script, global⟩, t₄, ?_, ((hi₁.trans hi₂).trans hi₃).trans hi₄, ?_⟩
  · simp only [allocateScopes, h₁, h₂, h₃, h₄]
  · have hx₃ := hi₄.grows
    have hx₂ := hi₃.grows.trans hx₃
    have hx₁ := hi₂.grows.trans hx₂
    exact ⟨hx₁.opens ho₁, hx₂.opens ho₂, hx₃.opens ho₃, ho₄⟩

/-- The frames shown for a stack, from a number on. -/
structure Depicted (w : Workspace) (remote : Bool) (t : HandleTable) (index : Nat)
    (stack : List EngineFrame) (frames : List StackFrame) : Prop where
  length : frames.length = stack.length
  frame : ∀ (i : Nat) (f : EngineFrame), stack[i]? = some f →
    ∃ g, frames[i]? = some g ∧ g.Depicts w remote t (index + i) f

theorem Depicted.mono {u : HandleTable} {stack : List EngineFrame}
    {frames : List StackFrame} (h : Depicted w remote t index stack frames) (hx : t.Extends u) :
    Depicted w remote u index stack frames := by
  refine ⟨h.length, fun i f hf => ?_⟩
  obtain ⟨g, hg, hd⟩ := h.frame i f hf
  exact ⟨g, hg, hd.mono hx⟩

/-- What is shown of each frame can be read off the stack. -/
theorem Depicted.map_eq {β : Type} {stack : List EngineFrame} {frames : List StackFrame}
    (h : Depicted w remote t index stack frames) {p : StackFrame → β} {q : EngineFrame → β}
    (hpq : ∀ i f g, StackFrame.Depicts g w remote t i f → p g = q f) :
    frames.map p = stack.map q := by
  refine List.ext_getElem (by simp [h.length]) fun i hi hj => ?_
  rw [List.length_map] at hj
  obtain ⟨g, hg, hd⟩ := h.frame i stack[i] (List.getElem?_eq_getElem hj)
  obtain ⟨_, rfl⟩ := List.getElem?_eq_some_iff.mp hg
  simpa using hpq _ _ _ hd

theorem buildFrames_depicted (w : Workspace) (remote : Bool) (stack : List EngineFrame)
    (index : Nat) (made : List StackFrame) (ht : t.Numbered)
    (room : t.containers.size + 4 * stack.length < Handle.indexBound) :
    ∃ frames u, buildFrames w remote stack index t made = (made.reverse ++ frames, u) ∧
      t.Issues u (frames.flatMap (·.scopes.handles)) ∧ Depicted w remote u index stack frames := by
  induction stack generalizing t index made with
  | nil =>
    refine ⟨[], t, by simp [buildFrames], ⟨ht, .refl t, ?_, rfl⟩, rfl, nofun⟩
    rw [List.flatMap_nil, List.append_nil]
  | cons f rest ih =>
    rw [List.length_cons] at room
    obtain ⟨scopes, u, ha, hi, ho⟩ := allocateScopes_issues ht index (by omega)
    have hsize := hi.size
    have hfour : scopes.handles.length = 4 := rfl
    let shown : StackFrame := ⟨index, f.functionName, (w.clientPath f.scriptPath remote).1,
      f.line, f.column, scopes⟩
    obtain ⟨frames, v, hb, hi', hd⟩ := ih (index + 1) (shown :: made) hi.numbered (by omega)
    refine ⟨shown :: frames, v, ?_, ?_, ?_, ?_⟩
    · rw [buildFrames, ha]
      simpa using hb
    · rw [List.flatMap_cons]
      exact hi.trans hi'
    · rw [List.length_cons, List.length_cons, hd.length]
    · intro i g hg
      cases i with
      | zero =>
        cases hg
        exact ⟨shown, rfl, rfl, rfl, rfl, rfl, rfl, ho.mono hi'.grows⟩
      | succ i =>
        obtain ⟨g', hg', hd'⟩ := hd.frame i g hg
        rw [Nat.add_assoc, Nat.add_comm 1 i] at hd'
        exact ⟨g', hg', hd'⟩

/-- What clients see in a stop: frames for the stack, with handles of their own that are good. -/
structure Depicts (s : Session) (w : Workspace) (remote : Bool) (stack : List EngineFrame)
    (frames : List StackFrame) : Prop where
  told : s.stackFrames = .ok frames
  depicted : Depicted w remote s.handles 0 stack frames
  nodup : (frames.flatMap (·.scopes.handles)).Nodup

theorem depicts_hold (hs : s.handles.Numbered) (h : Halt) (stack : List EngineFrame)
    (room : 4 * stack.length < Handle.indexBound) :
    ∃ frames, (s.hold h stack).Depicts s.around.workspace h.remote stack frames := by
  have hroom : s.handles.reset.containers.size + 4 * stack.length < Handle.indexBound := by
    rw [show s.handles.reset.containers.size = 0 from rfl, Nat.zero_add]
    exact room
  obtain ⟨frames, u, hb, hi, hd⟩ :=
    buildFrames_depicted s.around.workspace h.remote stack 0 [] hs.reset hroom
  have hframes : (s.hold h stack).frames = frames := congrArg Prod.fst hb
  have hhandles : (s.hold h stack).handles = u := congrArg Prod.snd hb
  refine ⟨frames, ?_, ?_, ?_⟩
  · rw [← hframes]
    rfl
  · rw [hhandles]
    exact hd
  · have hn := hi.numbered.nodup_handles
    rwa [hi.handles, HandleTable.handles_reset, List.nil_append] at hn

/-- What is seen in a stop is seen as long as it lasts. -/
theorem Depicts.mono {u : Session} {w : Workspace} {remote : Bool} {stack : List EngineFrame}
    {frames : List StackFrame} (h : s.Depicts w remote stack frames)
    (hu : u.runState = .stopped) (hframes : u.frames = s.frames)
    (hx : s.handles.Extends u.handles) : u.Depicts w remote stack frames := by
  obtain ⟨⟨⟩, hs, ht⟩ := Except.bind_eq_ok_iff.mp h.told
  refine ⟨?_, h.depicted.mono hx, h.nodup⟩
  rw [stackFrames, ensureStopped_eq_ok_iff.mpr hu, hframes]
  exact ht

end Session

namespace Move

variable {ρ : Type} {s t : Shared ρ}

theorem around (m : Move s t) : t.session.around = s.session.around := by
  have kept {s t : Session} (h : t.settings = s.settings) : t.around = s.around :=
    (Prod.mk.inj h).1
  cases m with
  | receive _ received => exact kept (Session.settings_receive received)
  | leaveStop =>
    rw [Shared.session_send]
    rfl
  | leave =>
    refine (kept (Session.settings_terminate _)).trans ?_
    split
    · rw [Shared.session_send]
    · rfl
  | serve _ _ _ _ same => exact same.around
  | complete outcome | completeLast outcome => exact kept (Session.settings_complete _ outcome)
  | exit crashed => exact kept (Session.settings_exit _ crashed)
  | _ => rfl

/-- Frames are only made when a stop begins. -/
theorem frames (m : Move s t) (hk : s.session.stops.IsKept)
    (hq : t.session.queuedStops = s.session.queuedStops) (ht : t.session.runState = .stopped) :
    t.session.frames = s.session.frames := by
  have passed {s t : Session} (h : s.Passes t) (ht : t.runState = .stopped) :
      t.frames = s.frames := (h.halt ht).2.2.1
  cases m with
  | receive _ received => exact passed (.receive received) ht
  | leaveStop next action stopped onward =>
    rw [Shared.session_send] at ht
    rcases onward with rfl | rfl <;> cases ht
  | execute | askAbort => cases ht
  | leave => simp [Shared.terminate] at ht
  | serve _ _ _ _ same => exact same.frames
  | halt h _ _ stack =>
    have hone := (Session.queuedStops_hold hk h stack).symm.trans hq
    simp at hone
  | complete outcome | completeLast outcome => exact passed (.complete _ outcome) ht
  | exit crashed => exact passed (.exit _ crashed) ht
  | _ => rfl

end Move

namespace System

variable {E : Engine} {s t : System E} {surroundings : Surroundings} {engine : E.State}
  {interrupts : Interrupts} {legs past since : List (Leg E)} {z : Leg E} {event : StoppedEvent}

theorem Course.around (h : (opened surroundings engine interrupts : System E).Course legs t) :
    t.session.around = surroundings := by
  induction h with
  | rest => rfl
  | step a h hs ih =>
    exact (step_move (departing_reaches (h.reaches (.refl _))) hs).around.trans ih

/-- The thread tells of a stop with the call stack that the engine has then. -/
theorem exists_hold (hr : Reaches (opened surroundings engine interrupts) s) {a : Action}
    (h : s.step a = some t) (hx : Leg.stop? ⟨s, a, t⟩ = some event) :
    ∃ halt k execution stack, s.worker = .halting halt k execution ∧
      E.context.callStack.run s.engine = (some stack, t.engine) ∧
      t.session = s.session.hold halt stack ∧ event = s.session.stoppedEvent halt := by
  rcases (step_move (departing_reaches hr) h).queuedStops (stopsTold_reaches hr).kept with
    hq | ⟨halt, k, execution, hw, hs, ht, hq⟩
  · have hq : t.session.queuedStops = s.session.queuedStops := hq
    simp [Leg.stop?, hq] at hx
  have hw : s.worker = .halting halt k execution := hw
  have ht : t.worker = .taking (.halted k execution) := ht
  have hq : t.session.queuedStops = s.session.queuedStops ++ [s.session.stoppedEvent halt] := hq
  have hevent : event = s.session.stoppedEvent halt := by
    simp only [Leg.stop?, hq, List.getElem?_concat_length, Option.some.injEq] at hx
    exact hx.symm
  obtain rfl : a = .work := by
    by_contra ha
    rw [(Prod.mk.inj (thread_step ha h)).2, hw] at ht
    cases ht
  simp only [step, work, hw, Option.map_some, Option.some.injEq] at h
  subst h
  unfold tellHalt at ht ⊢
  rcases hrun : (s.session.halt E.context halt).run s.engine with ⟨_ | ⟨accepted, session⟩, u⟩
  · rw [hrun] at ht
    dsimp only at ht
    rw [worker_crash] at ht
    cases ht
  · rcases halt_cases hrun with ⟨_, _, stack, hstack, rfl⟩ | ⟨_, hn, _⟩
    · exact ⟨halt, k, execution, stack, hw, hstack, rfl, hevent⟩
    · have hs : s.session.runState = .running ∨ s.session.runState = .stopped := hs
      rcases hs with hs | hs <;> simp [hs] at hn

theorem depicts_inStop (hr : Reaches (opened surroundings engine interrupts) s) {a : Action}
    (h : s.step a = some t) (hx : Leg.InStop ⟨s, a, t⟩) {w : Workspace} {remote : Bool}
    {stack : List EngineFrame} {frames : List StackFrame}
    (hd : s.session.Depicts w remote stack frames) : t.session.Depicts w remote stack frames := by
  have hq : t.session.queuedStops = s.session.queuedStops := by
    rcases stop?_cases hr h with ⟨_, hq⟩ | ⟨_, _, _, _, hn, _⟩
    · exact hq
    · cases hn.symm.trans hx.silent
  have hframes : t.session.frames = s.session.frames :=
    (step_move (departing_reaches hr) h).frames (stopsTold_reaches hr).kept hq hx.after
  obtain ⟨_, hext⟩ := (turn_of_step hr h).within (congrArg List.length hq) hx.after
  exact hd.mono hx.after hframes hext

/-- From the stop on, and as long as it lasts, clients see the call stack that the engine has
there. -/
theorem Course.depicts
    (h : (opened surroundings engine interrupts : System E).Course (past ++ z :: since) t)
    (hz : z.stop? = some event) (hin : ∀ y ∈ since, y.InStop) :
    ∃ stack, E.context.callStack.run z.before.engine = (some stack, z.after.engine) ∧
      (4 * stack.length < Handle.indexBound → ∃ frames,
        t.session.Depicts surroundings.workspace event.isRemoteSession stack frames) := by
  obtain ⟨hpast, hs, hsince⟩ := h.split
  have hr := hpast.reaches (.refl _)
  obtain ⟨halt, k, execution, stack, hw, hstack, hhold, rfl⟩ := exists_hold hr hs hz
  refine ⟨stack, hstack, fun room => ?_⟩
  obtain ⟨frames, hd⟩ := Session.depicts_hold (stocked_reaches hr).handles.numbered halt stack room
  rw [hpast.around, ← hhold] at hd
  refine ⟨frames, ?_⟩
  clear h
  induction hsince with
  | rest => exact hd
  | step a hsince hstep ih =>
    obtain ⟨hin, hlast⟩ := List.forall_mem_append.mp hin
    have hr' := hsince.reaches (hr.step _ hs)
    exact depicts_inStop hr' hstep (hlast _ List.mem_cons_self) (ih hin)

end System
end Stepwise
