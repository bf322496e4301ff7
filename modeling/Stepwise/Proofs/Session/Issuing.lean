import Stepwise.Proofs.Handle.Issued
import Stepwise.Proofs.Session.Setting

namespace Stepwise
open EngineM

def FrameScopes.handles (f : FrameScopes) : List Handle :=
  [f.auto, f.locals, f.script, f.global]

/-- The handles that come with an answer. -/
def Answer.handles : Answer → List Handle
  | .children list => Variable.handles list
  | .evaluated result => result.handle.toList
  | .frames list => list.flatMap fun f => f.scopes.handles
  | .scopes list => list.map (·.handle)
  | _ => []

/-- All that is shown of a halt refers to handles of its table. -/
structure Session.Stocked (s : Session) : Prop where
  handles : s.handles.Stocked
  frames : ∀ f ∈ s.frames, f.scopes.handles ⊆ s.handles.handles

namespace SessionM

variable {σ α β : Type} {cx : Context σ} {s : Session} {P : α → Session → Prop}
  {Q : β → Session → Prop}

/-- Work on the registry ends with its result and changes nothing else. -/
theorem onRegistry_returns {f : Registry → EngineM σ (α × Registry)} {e u : σ}
    {r : Except SessionError α} {t : Session} (h : ((onRegistry f).run.run s).Returns e (r, t) u) :
    ∃ a registry, r = .ok a ∧ t = { s with registry } ∧
      Returns (f s.registry) e (a, registry) u := by
  rcases returns_bind h with ⟨x, _, hx⟩ | ⟨now, s', e', hget, h⟩
  · cases hx
  cases hget
  unfold Returns at h
  rw [run_bind, run_lift] at h
  rcases hm : (f s.registry).run e with ⟨_ | ⟨a, registry⟩, e'⟩ <;> rw [hm] at h <;> cases h
  exact ⟨a, registry, rfl, rfl, hm⟩

/-- However the work ends, handles have only been added, and what it gives is so. -/
def Adds (s : Session) (m : SessionM σ α) (P : α → Session → Prop) : Prop :=
  ∀ ⦃e r t u⦄, (m.run.run s).Returns e (r, t) u →
    t.handles.Stocked ∧ s.handles.Extends t.handles ∧ ∀ a, r = .ok a → P a t

namespace Adds

theorem pure (hs : s.handles.Stocked) {a : α} (h : P a s) : Adds s (pure a : SessionM σ α) P := by
  intro e r t u hr
  cases hr
  refine ⟨hs, .refl _, ?_⟩
  intro b hb
  cases hb
  exact h

theorem throw (hs : s.handles.Stocked) (x : SessionError) :
    Adds s (throw x : SessionM σ α) P := by
  intro e r t u hr
  cases hr
  exact ⟨hs, .refl _, nofun⟩

theorem bind {m : SessionM σ α} {f : α → SessionM σ β} (hm : Adds s m P)
    (hf : ∀ a t, t.handles.Stocked → s.handles.Extends t.handles → P a t → Adds t (f a) Q) :
    Adds s (m >>= f) Q := by
  intro e r t u hr
  rcases returns_bind hr with ⟨x, rfl, hx⟩ | ⟨a, s', e', ha, h'⟩
  · obtain ⟨ht, he, _⟩ := hm hx
    exact ⟨ht, he, nofun⟩
  · obtain ⟨hs', he, hp⟩ := hm ha
    obtain ⟨ht, he', hq⟩ := hf a s' hs' he (hp a rfl) h'
    exact ⟨ht, he.trans he', hq⟩

theorem mono {P' : α → Session → Prop} {m : SessionM σ α} (hm : Adds s m P)
    (hp : ∀ a t, P a t → P' a t) : Adds s m P' := by
  intro e r t u hr
  obtain ⟨ht, he, h⟩ := hm hr
  exact ⟨ht, he, fun a ha => hp a t (h a ha)⟩

theorem map {m : SessionM σ α} {f : α → β} (hm : Adds s m P) (hf : ∀ a t, P a t → Q (f a) t) :
    Adds s (f <$> m) Q := by
  rw [map_eq_pure_bind]
  exact hm.bind fun a t ht _ hp => pure ht (hf a t hp)

theorem get_bind {f : Session → SessionM σ β} (h : Adds s (f s) Q) : Adds s (get >>= f) Q := by
  intro e r t u hr
  unfold Returns at hr
  rw [run_bind] at hr
  exact h hr

theorem set_bind {t : Session} {f : PUnit → SessionM σ β} (he : s.handles.Extends t.handles)
    (h : Adds t (f ⟨⟩) Q) : Adds s (set t >>= f) Q := by
  intro e r v u hr
  unfold Returns at hr
  rw [run_bind] at hr
  obtain ⟨hv, he', hq⟩ := h hr
  exact ⟨hv, he.trans he', hq⟩

theorem modify_bind {g : Session → Session} {f : PUnit → SessionM σ β}
    (he : s.handles.Extends (g s).handles) (h : Adds (g s) (f ⟨⟩) Q) :
    Adds s (modify g >>= f) Q := by
  intro e r v u hr
  unfold Returns at hr
  rw [run_bind] at hr
  obtain ⟨hv, he', hq⟩ := h hr
  exact ⟨hv, he.trans he', hq⟩

/-- What only asks the engine leaves the handles alone. -/
theorem of_consults (hs : s.handles.Stocked) {m : SessionM σ α}
    (hm : Consults (fun _ _ => True) m) : Adds s m fun _ t => t = s := by
  intro e r t u hr
  obtain ⟨rfl, _⟩ := hm hr
  exact ⟨hs, .refl _, fun _ _ => rfl⟩

theorem ask_bind (hs : s.handles.Stocked) (m : EngineM σ (Except EngineError α))
    (onError : EngineError → SessionError) {f : α → SessionM σ β} (h : ∀ a, Adds s (f a) Q) :
    Adds s (ask m onError >>= f) Q := by
  refine (of_consults hs (.ask (fun _ => trivial) onError)).bind ?_
  intro a t _ _ ht
  rw [ht]
  exact h a

theorem read_bind (hs : s.handles.Stocked) {g : Session → Except SessionError α}
    {f : α → SessionM σ β} (h : ∀ a, g s = .ok a → Adds s (f a) Q) :
    Adds s (read g >>= f) Q := by
  have hread : Adds s (read g : SessionM σ α) fun a t => t = s ∧ g s = .ok a := by
    apply get_bind
    cases hg : g s with
    | ok a => exact pure hs ⟨rfl, rfl⟩
    | error x => exact throw hs x
  refine hread.bind ?_
  intro a t _ _ hp
  rw [hp.1]
  exact h a hp.2

theorem allocate (hs : s.handles.Stocked) {c : Container} (hn : c.children = none) :
    Adds s (allocate c : SessionM σ Handle) fun h t => h ∈ t.handles.handles := by
  obtain ⟨ht, he, hm⟩ := hs.allocate hn
  apply get_bind
  dsimp only
  cases ha : (s.handles.allocate c).1 with
  | none => exact throw hs _
  | some h => exact set_bind he (pure ht (hm h ha))

theorem makeVariable (hs : s.handles.Stocked) (name : String) (value : Description)
    (type : Option String) (scope : Scope) :
    Adds s (makeVariable name value type scope : SessionM σ Variable) fun v t =>
      ∀ h, v.handle = some h → h ∈ t.handles.handles := by
  apply get_bind
  dsimp only
  split
  · next r _ =>
    refine ((allocate hs rfl).map (Q := fun o t => ∀ h, o = some h → h ∈ t.handles.handles)
      (by simp)).bind ?_
    exact fun o t ht _ hp => pure ht hp
  · refine (pure hs (P := fun o _ => o = none) rfl).bind ?_
    intro o t ht _ hp
    exact pure ht (by simp [hp])

theorem makeVariables (hs : s.handles.Stocked) (scope : Scope)
    (l : List (String × Description × Option String)) :
    Adds s (makeVariables scope l : SessionM σ (List Variable)) fun list t =>
      Variable.handles list ⊆ t.handles.handles := by
  induction l generalizing s with
  | nil => exact pure hs (List.nil_subset _)
  | cons entry rest ih =>
    obtain ⟨name, value, type⟩ := entry
    refine (makeVariable hs name value type scope).bind ?_
    intro v t ht _ hv
    refine (ih ht).bind ?_
    intro others w hw he hothers
    refine pure hw ?_
    intro h hh
    obtain ⟨x, hx, hxh⟩ := List.mem_filterMap.mp hh
    rcases List.mem_cons.mp hx with rfl | hx
    · exact he.mem_handles (hv h hxh)
    · exact hothers (List.mem_filterMap.mpr ⟨x, hx, hxh⟩)

theorem entries_bind (hs : s.handles.Stocked) (kind : ContainerKind)
    {f : List (String × Description × Option String) → SessionM σ β}
    (h : ∀ listed, Adds s (f listed) Q) : Adds s (entries cx kind >>= f) Q := by
  cases kind with
  | scope scope filter =>
    rw [entries, bind_assoc]
    refine ask_bind hs _ _ fun vars => ?_
    rw [pure_bind]
    exact h _
  | value reference =>
    rw [entries, bind_assoc]
    refine ask_bind hs _ _ fun children => ?_
    rw [pure_bind]
    exact h _

theorem expand (hs : s.handles.Stocked) (h : Handle) :
    Adds s (expand cx h) fun list t => Variable.handles list ⊆ t.handles.handles := by
  refine read_bind hs fun _ _ => read_bind hs fun c hc => ?_
  split
  · next children hchildren =>
    have hm := HandleTable.mem_of_resolve (Except.mapError_eq_ok_iff.mp hc)
    exact pure hs (hs.remembered c hm children hchildren)
  · refine entries_bind hs c.kind fun listed => ?_
    refine (makeVariables hs c.parentScope listed).bind ?_
    intro children t ht _ hchildren
    refine read_bind ht fun handles hset => ?_
    obtain ⟨hu, he⟩ := ht.setChildren hchildren (Except.mapError_eq_ok_iff.mp hset)
    exact modify_bind he (pure hu fun k hk => he.mem_handles (hchildren hk))

theorem evaluate (hs : s.handles.Stocked) (expression : String) (frame : Nat) :
    Adds s (evaluate cx expression frame) fun result t =>
      ∀ h, result.handle = some h → h ∈ t.handles.handles := by
  unfold SessionM.evaluate
  refine read_bind hs fun _ _ => get_bind ?_
  dsimp only
  have told : Adds s (do
      let value ← ask (cx.evaluate (.locals frame) expression) told
      let v ← SessionM.makeVariable expression value none (.locals frame)
      return { value := v.value, typeName := v.typeName, isExpandable := v.isExpandable,
               handle := v.handle : Evaluated }) fun result t =>
      ∀ h, result.handle = some h → h ∈ t.handles.handles := by
    refine ask_bind hs _ _ fun value => ?_
    exact (makeVariable hs expression value none _).bind fun v t ht _ hv => pure ht hv
  split
  · exact (throw (P := fun _ _ => False) hs _).bind fun _ _ _ _ hf => hf.elim
  · exact told

theorem setVariable (hs : s.handles.Stocked) (h : Handle) (name expression : String) :
    Adds s (setVariable cx h name expression) fun _ _ => True := by
  unfold SessionM.setVariable
  refine (of_consults hs (.toAssign (.anything cx) h name expression)).bind ?_
  intro a t ht _ _
  refine ask_bind ht _ _ fun _ => ?_
  refine (of_consults ht (.existing (.anything cx) a.scope name)).bind ?_
  intro updated w hw _ _
  exact modify_bind w.handles.invalidateChildren_extends
    (get_bind (pure hw.invalidateChildren trivial))

theorem onRegistry (hs : s.handles.Stocked) (f : Registry → EngineM σ (α × Registry)) :
    Adds s (onRegistry f) fun a _ => ∃ registry e u, Returns (f s.registry) e (a, registry) u := by
  intro e r t u hr
  obtain ⟨a, registry, rfl, rfl, h⟩ := onRegistry_returns hr
  refine ⟨hs, .refl _, ?_⟩
  intro b hb
  cases hb
  exact ⟨registry, e, u, h⟩

end Adds
end SessionM

/-- Whatever is asked for, handles are only added, and the answer comes with issued ones. -/
theorem Request.serve_adds {σ : Type} (r : Request) (cx : Context σ) (home : Home) {s : Session}
    (hs : s.handles.Stocked) :
    SessionM.Adds s (r.serve cx home) fun answer t => answer.handles ⊆ t.handles.handles := by
  cases r with
  | setLineBreakpoints path requests =>
    rw [serve]
    exact (SessionM.Adds.onRegistry hs _).map fun _ _ _ => List.nil_subset _
  | setCommandBreakpoints requests =>
    rw [serve]
    exact (SessionM.Adds.onRegistry hs _).map fun _ _ _ => List.nil_subset _
  | removeAllBreakpoints =>
    rw [serve]
    refine (SessionM.Adds.onRegistry hs _).mono ?_
    intro answer t h
    obtain ⟨registry, e, u, hr⟩ := h
    rw [map_eq_pure_bind] at hr
    obtain ⟨next, w, _, hp⟩ := hr.of_bind
    obtain ⟨⟨⟩, _⟩ := hp.unique (.pure _ _)
    exact List.nil_subset _
  | expand h =>
    rw [serve]
    exact (SessionM.Adds.expand hs h).map fun _ _ hl => hl
  | setVariable h name expression =>
    rw [serve]
    exact (SessionM.Adds.setVariable hs h name expression).map fun _ _ _ => List.nil_subset _
  | evaluate expression frame =>
    rw [serve]
    refine (SessionM.Adds.evaluate hs expression frame).map ?_
    intro result t hr h hh
    exact hr h (Option.mem_toList.mp hh)

namespace Session

variable {t : HandleTable}

theorem allocateScopes_handles (ht : t.Stocked) (index : Nat) :
    (allocateScopes t index).2.Stocked ∧ t.Extends (allocateScopes t index).2 ∧
      ∀ f, (allocateScopes t index).1 = some f →
        f.handles ⊆ (allocateScopes t index).2.handles := by
  have h₁ := ht.allocate (c := .ofScope "Auto" (.locals index) .auto) rfl
  have h₂ := h₁.1.allocate (c := .ofScope "Local" (.locals index) .all) rfl
  have h₃ := h₂.1.allocate (c := .ofScope "Script" (.script index) .all) rfl
  have h₄ := h₃.1.allocate (c := .ofScope "Global" .global .all) rfl
  have hx₃ := h₃.2.1.trans h₄.2.1
  have hx₂ := h₂.2.1.trans hx₃
  unfold allocateScopes
  dsimp only
  split
  · next auto locals script global ha hl hs hg =>
    refine ⟨h₄.1, h₁.2.1.trans hx₂, ?_⟩
    intro f hf
    cases hf
    simp only [FrameScopes.handles, List.cons_subset, List.nil_subset, and_true]
    exact ⟨hx₂.mem_handles (h₁.2.2 _ ha), hx₃.mem_handles (h₂.2.2 _ hl),
      h₄.2.1.mem_handles (h₃.2.2 _ hs), h₄.2.2 _ hg⟩
  · exact ⟨h₄.1, h₁.2.1.trans hx₂, nofun⟩

theorem buildFrames_handles (w : Workspace) (remote : Bool) (stack : List EngineFrame)
    (index : Nat) (made : List StackFrame) (ht : t.Stocked)
    (hm : ∀ f ∈ made, f.scopes.handles ⊆ t.handles) :
    (buildFrames w remote stack index t made).2.Stocked ∧
      t.Extends (buildFrames w remote stack index t made).2 ∧
      ∀ f ∈ (buildFrames w remote stack index t made).1,
        f.scopes.handles ⊆ (buildFrames w remote stack index t made).2.handles := by
  induction stack generalizing t index made with
  | nil => exact ⟨ht, .refl t, fun f hf => hm f (List.mem_reverse.mp hf)⟩
  | cons f rest ih =>
    obtain ⟨hu, hx, hs⟩ := allocateScopes_handles ht index
    rw [buildFrames]
    rcases ha : allocateScopes t index with ⟨_ | scopes, u⟩
    · rw [ha] at hu hx
      exact ⟨hu, hx, List.forall_mem_nil _⟩
    · rw [ha] at hu hx hs
      have hmade : ∀ g ∈ made, g.scopes.handles ⊆ u.handles :=
        fun g hg _ hh => hx.mem_handles (hm g hg hh)
      let shown : StackFrame := ⟨index, f.functionName, (w.clientPath f.scriptPath remote).1,
        f.line, f.column, scopes⟩
      obtain ⟨hv, hx', hf⟩ := ih (index + 1) (shown :: made) hu
        (List.forall_mem_cons.mpr ⟨hs scopes rfl, hmade⟩)
      exact ⟨hv, hx.trans hx', hf⟩

theorem Stocked.hold {s : Session} (hs : s.Stocked) (h : Halt) (stack : List EngineFrame) :
    (s.hold h stack).Stocked ∧
      (s.hold h stack).handles.generation = s.handles.reset.generation := by
  obtain ⟨ht, hx, hf⟩ := buildFrames_handles s.around.workspace h.remote stack 0 [] hs.handles.reset
    (by simp)
  exact ⟨⟨ht, hf⟩, hx.generation⟩

end Session
end Stepwise
