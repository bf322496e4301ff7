import Stepwise.Proofs.Session.Outcomes

namespace Stepwise

variable {σ α β : Type} {cx : Context σ}

/-- The operations of a context that have nothing to do with breakpoints or the call stack. -/
inductive Inquiry (cx : Context σ) : {α : Type} → EngineM σ (Except EngineError α) → Prop
  | listVariables (scope : Scope) : Inquiry cx (cx.listVariables scope)
  | lookupVariable (scope : Scope) (name : String) : Inquiry cx (cx.lookupVariable scope name)
  | children (reference : Reference) : Inquiry cx (cx.children reference)
  | evaluate (scope : Scope) (expression : String) : Inquiry cx (cx.evaluate scope expression)
  | coerce (value : Description) (type : String) : Inquiry cx (cx.coerce value type)
  | assign (scope : Scope) (name : String) (value : Description) :
    Inquiry cx (cx.assign scope name value)

/-- Work on a session that changes nothing in it but the handles, and asks the engine. -/
inductive Inspects (cx : Context σ) : {α : Type} → SessionM σ α → Prop
  | pure {α : Type} (a : α) : Inspects cx (pure a)
  | throw {α : Type} (x : SessionError) : Inspects cx (throw x : SessionM σ α)
  | bind {α β : Type} {m : SessionM σ α} {f : α → SessionM σ β} (hm : Inspects cx m)
    (hf : ∀ a, Inspects cx (f a)) : Inspects cx (m >>= f)
  | get : Inspects cx get
  | allocate (c : Container) : Inspects cx (SessionM.allocate c)
  | modifyHandles (f : HandleTable → HandleTable) :
    Inspects cx (modify fun s => { s with handles := f s.handles })
  | ask {α : Type} {m : EngineM σ (Except EngineError α)} (hm : Inquiry cx m)
    (onError : EngineError → SessionError) : Inspects cx (SessionM.ask m onError)

namespace Inspects

theorem map {m : SessionM σ α} (f : α → β) (hm : Inspects cx m) : Inspects cx (f <$> m) := by
  rw [map_eq_pure_bind]
  exact hm.bind fun a => .pure (f a)

theorem read (f : Session → Except SessionError α) : Inspects cx (SessionM.read f) := by
  refine bind .get fun s => ?_
  cases f s with
  | ok a => exact .pure a
  | error e => exact .throw e

theorem makeVariable (name : String) (value : Description) (type : Option String) (scope : Scope) :
    Inspects cx (SessionM.makeVariable name value type scope) := by
  refine bind .get fun s => ?_
  dsimp only
  split
  · exact ((allocate _).map some).bind fun _ => .pure _
  · exact (pure none).bind fun _ => .pure _

theorem makeVariables (scope : Scope) (l : List (String × Description × Option String)) :
    Inspects cx (SessionM.makeVariables scope l) := by
  induction l with
  | nil => exact .pure []
  | cons entry rest ih =>
    obtain ⟨name, value, type⟩ := entry
    exact (makeVariable name value type scope).bind fun v => ih.bind fun others => .pure (v :: others)

theorem entries (kind : ContainerKind) : Inspects cx (SessionM.entries cx kind) := by
  cases kind with
  | scope scope filter => exact (ask (.listVariables scope) _).bind fun _ => .pure _
  | value reference => exact (ask (.children reference) _).bind fun _ => .pure _

theorem expand (h : Handle) : Inspects cx (SessionM.expand cx h) := by
  refine (read _).bind fun _ => (read _).bind fun c => ?_
  split
  · exact .pure _
  · refine (entries c.kind).bind fun listed => (makeVariables c.parentScope listed).bind ?_
    intro children
    exact (read _).bind fun handles => (modifyHandles fun _ => handles).bind fun _ => .pure children

theorem convert (name : String) (value : Description) (type : Option String) :
    Inspects cx (SessionM.convert cx name value type) := by
  cases type with
  | none => exact .pure value
  | some type => exact .ask (.coerce value type) _

theorem existing (scope : Scope) (name : String) :
    Inspects cx (SessionM.existing cx scope name) := by
  refine (ask (.lookupVariable scope name) _).bind fun v => ?_
  cases v with
  | none => exact .throw _
  | some v => exact .pure v

theorem toAssign (h : Handle) (name expression : String) :
    Inspects cx (SessionM.toAssign cx h name expression) := by
  refine (read _).bind fun _ => (read _).bind fun c => ?_
  split
  · exact .throw _
  · next scope filter _ =>
    refine (existing scope name).bind fun old => (ask (.evaluate scope expression) _).bind ?_
    intro value
    exact (convert name value old.declaredType).bind fun value => .pure _

theorem carryOut (name : String) (a : Assignment) : Inspects cx (SessionM.carryOut cx name a) := by
  refine (ask (.assign a.scope name a.value) _).bind fun _ => (existing a.scope name).bind fun _ => ?_
  exact (modifyHandles HandleTable.invalidateChildren).bind fun _ => get.bind fun _ => .pure _

theorem setVariable (h : Handle) (name expression : String) :
    Inspects cx (SessionM.setVariable cx h name expression) :=
  (toAssign h name expression).bind fun a => carryOut name a

theorem evaluate (expression : String) (frame : Nat) :
    Inspects cx (SessionM.evaluate cx expression frame) := by
  unfold SessionM.evaluate
  refine (read _).bind fun _ => get.bind fun s => ?_
  have shown : Inspects cx (do
      let value ← SessionM.ask (cx.evaluate (.locals frame) expression) SessionM.told
      let v ← SessionM.makeVariable expression value none (.locals frame)
      return { value := v.value, typeName := v.typeName, isExpandable := v.isExpandable,
               handle := v.handle : Evaluated }) :=
    (ask (.evaluate (.locals frame) expression) _).bind fun value =>
      (makeVariable expression value none (.locals frame)).bind fun _ => .pure _
  dsimp only
  split
  · exact (throw _).bind fun _ => shown
  · exact shown

theorem allocate_ends (c : Container) (s : Session) (e : σ) :
    (SessionM.allocate c).Ends s e fun _ t u => t.registry = s.registry ∧ u = e := by
  refine .get_bind ?_
  dsimp only
  split
  · exact .set_bind (.pure ⟨rfl, rfl⟩)
  · exact .throw ⟨rfl, rfl⟩

/-- The breakpoints of the session stay; the engine goes where its answers lead it. -/
theorem leads {R : σ → σ → Prop} (refl : ∀ e, R e e) (trans : ∀ {a b c}, R a b → R b c → R a c)
    (inquiry : ∀ {α : Type} {m : EngineM σ (Except EngineError α)}, Inquiry cx m →
      ∀ e, R e (m.run e).2)
    {m : SessionM σ α} (h : Inspects cx m) (s : Session) (e : σ) :
    R e ((m.run.run s).run e).2 ∧
      ∀ r t, ((m.run.run s).run e).1 = some (r, t) → t.registry = s.registry := by
  induction h generalizing s e with
  | pure | throw | get | modifyHandles =>
    refine ⟨refl e, ?_⟩
    intro r t ht
    cases ht
    rfl
  | allocate c =>
    obtain ⟨r, t, u, hr, ht, rfl⟩ := allocate_ends c s e
    rw [hr]
    refine ⟨refl _, ?_⟩
    intro r' t' ht'
    cases ht'
    exact ht
  | @ask α m hm onError =>
    have hr := inquiry hm e
    unfold SessionM.ask
    rw [SessionM.run_bind, SessionM.run_lift]
    rcases hrun : m.run e with ⟨_ | ⟨x | a⟩, u⟩ <;> rw [hrun] at hr
    · refine ⟨hr, ?_⟩
      intro r t ht
      cases ht
    · refine ⟨hr, ?_⟩
      intro r t ht
      cases ht
      rfl
    · refine ⟨hr, ?_⟩
      intro r t ht
      cases ht
      rfl
  | @bind α β m f _ _ ihm ihf =>
    obtain ⟨hr, hs⟩ := ihm s e
    rw [SessionM.run_bind]
    rcases hrun : (m.run.run s).run e with ⟨_ | ⟨x | a, t⟩, u⟩
    · rw [hrun] at hr
      refine ⟨hr, ?_⟩
      intro r t ht
      cases ht
    · rw [hrun] at hr hs
      refine ⟨hr, ?_⟩
      intro r t' ht
      cases ht
      exact hs _ _ rfl
    · rw [hrun] at hr hs
      obtain ⟨hr', hs'⟩ := ihf a t u
      refine ⟨trans hr hr', ?_⟩
      intro r t' ht
      exact (hs' r t' ht).trans (hs _ _ rfl)

end Inspects
end Stepwise
