import Mathlib.Data.List.Monad
import Stepwise.Session.Request

namespace Stepwise

variable {σ α β : Type}

/-- Only breakpoints and handles differ. -/
def Session.SameHalt (s t : Session) : Prop :=
  t = { s with registry := t.registry, handles := t.handles }

namespace Session.SameHalt

theorem refl (s : Session) : s.SameHalt s := rfl

theorem trans {s t u : Session} (h : s.SameHalt t) (h' : t.SameHalt u) : s.SameHalt u := by
  unfold SameHalt at h h' ⊢
  rw [h] at h'
  exact h'

theorem symm {s t : Session} (h : s.SameHalt t) : t.SameHalt s := by
  unfold SameHalt at h ⊢
  rw [h]

end Session.SameHalt

namespace SessionM

theorem run_bind (m : SessionM σ α) (f : α → SessionM σ β) (s : Session) (e : σ) :
    ((m >>= f).run.run s).run e =
      match (m.run.run s).run e with
      | (none, e) => (none, e)
      | (some (.error x, t), e) => (some (.error x, t), e)
      | (some (.ok a, t), e) => ((f a).run.run t).run e := by
  simp only [ExceptT.run, StateT.run, OptionT.run, bind, ExceptT.bind, ExceptT.mk, StateT.bind,
    OptionT.bind, OptionT.mk]
  rcases m s e with ⟨_ | ⟨x | a, t⟩, e'⟩ <;> rfl

theorem run_lift (m : EngineM σ α) (s : Session) (e : σ) :
    ((m : SessionM σ α).run.run s).run e =
      match m.run e with
      | (none, e) => (none, e)
      | (some a, e) => (some (.ok a, s), e) := by
  simp only [ExceptT.run, StateT.run, OptionT.run, bind, ExceptT.mk, StateT.bind, OptionT.bind,
    OptionT.mk, liftM, monadLift, MonadLift.monadLift, ExceptT.lift, StateT.lift, Functor.map,
    StateT.map]
  rcases m e with ⟨_ | a, e'⟩ <;> rfl

/-- However the computation ends, with an error too, the session is still where it was. -/
def Keeps (s : Session) (m : SessionM σ α) : Prop :=
  ∀ e r t e', (m.run.run s).run e = (some (r, t), e') → s.SameHalt t

namespace Keeps

variable {s : Session}

theorem pure (a : α) : Keeps s (pure a : SessionM σ α) := by
  intro e r t e' h
  cases h
  exact .refl s

theorem throw (x : SessionError) : Keeps s (throw x : SessionM σ α) := by
  intro e r t e' h
  cases h
  exact .refl s

theorem lift (m : EngineM σ α) : Keeps s (m : SessionM σ α) := by
  intro e r t e' h
  rw [run_lift] at h
  rcases hm : m.run e with ⟨_ | a, e₁⟩
  · rw [hm] at h
    cases h
  · rw [hm] at h
    cases h
    exact .refl s

theorem bind {m : SessionM σ α} {f : α → SessionM σ β} (hm : Keeps s m)
    (hf : ∀ a t, s.SameHalt t → Keeps t (f a)) : Keeps s (m >>= f) := by
  intro e r t e' h
  rw [run_bind] at h
  rcases hr : (m.run.run s).run e with ⟨_ | ⟨x | a, u⟩, e₁⟩
  · rw [hr] at h
    cases h
  · rw [hr] at h
    cases h
    exact hm e _ t _ hr
  · rw [hr] at h
    have hu : s.SameHalt u := hm e _ u _ hr
    exact hu.trans (hf a u hu e₁ r t e' h)

theorem set_bind {t : Session} {m : SessionM σ α} (h : s.SameHalt t) (hm : Keeps t m) :
    Keeps s (set t >>= fun _ => m) := by
  intro e r u e' hr
  rw [run_bind] at hr
  exact h.trans (hm e r u e' hr)

theorem get_bind {f : Session → SessionM σ α} (h : Keeps s (f s)) : Keeps s (get >>= f) := by
  intro e r t e' hr
  rw [run_bind] at hr
  exact h e r t e' hr

theorem map {m : SessionM σ α} (f : α → β) (hm : Keeps s m) : Keeps s (f <$> m) := by
  rw [map_eq_pure_bind]
  exact hm.bind fun a _ _ => .pure (f a)

theorem modify {f : Session → Session} (h : s.SameHalt (f s)) :
    Keeps s (modify f : SessionM σ PUnit) := by
  intro e r t e' hr
  cases hr
  exact h

theorem read (f : Session → Except SessionError α) : Keeps s (SessionM.read f : SessionM σ α) := by
  apply get_bind
  cases f s with
  | ok a => exact .pure a
  | error e => exact .throw e

theorem ask (m : EngineM σ (Except EngineError α)) (onError : EngineError → SessionError) :
    Keeps s (SessionM.ask m onError) := by
  apply (lift m).bind
  intro r t _
  cases r with
  | ok a => exact .pure a
  | error e => exact .throw (onError e)

theorem allocate (c : Container) : Keeps s (SessionM.allocate c : SessionM σ Handle) := by
  apply get_bind
  dsimp only
  cases (s.handles.allocate c).1 with
  | none => exact .throw _
  | some h =>
    apply set_bind
    · rfl
    · exact .pure h

theorem makeVariable (name : String) (value : Description) (type : Option String) (scope : Scope) :
    Keeps s (SessionM.makeVariable name value type scope : SessionM σ Variable) := by
  apply get_bind
  dsimp only
  split
  · exact ((allocate _).map some).bind fun _ _ _ => .pure _
  · exact (pure none).bind fun _ _ _ => .pure _

theorem makeVariables (scope : Scope) (l : List (String × Description × Option String)) :
    Keeps s (SessionM.makeVariables scope l : SessionM σ (List Variable)) := by
  induction l generalizing s with
  | nil => exact .pure []
  | cons entry rest ih =>
    obtain ⟨name, value, type⟩ := entry
    apply (makeVariable name value type scope).bind
    intro v t _
    exact ih.bind fun others _ _ => .pure (v :: others)

theorem entries (cx : Context σ) (kind : ContainerKind) : Keeps s (SessionM.entries cx kind) := by
  cases kind with
  | scope scope filter => exact (ask _ _).bind fun _ _ _ => .pure _
  | value reference => exact (ask _ _).bind fun _ _ _ => .pure _

theorem expand (cx : Context σ) (h : Handle) : Keeps s (SessionM.expand cx h) := by
  apply (read _).bind
  intro _ _ _
  apply (read _).bind
  intro c _ _
  split
  · exact .pure _
  · apply (entries cx c.kind).bind
    intro listed _ _
    apply (makeVariables c.parentScope listed).bind
    intro children _ _
    apply (read _).bind
    intro handles _ _
    refine (modify ?_).bind fun _ _ _ => .pure children
    rfl

theorem convert (cx : Context σ) (name : String) (value : Description) (type : Option String) :
    Keeps s (SessionM.convert cx name value type) := by
  cases type with
  | none => exact .pure value
  | some type => exact .ask _ _

theorem existing (cx : Context σ) (scope : Scope) (name : String) :
    Keeps s (SessionM.existing cx scope name) := by
  apply (ask _ _).bind
  intro v _ _
  cases v with
  | none => exact .throw _
  | some v => exact .pure v

theorem toAssign (cx : Context σ) (h : Handle) (name expression : String) :
    Keeps s (SessionM.toAssign cx h name expression) := by
  apply (read _).bind
  intro _ _ _
  apply (read _).bind
  intro c _ _
  split
  · exact .throw _
  · apply (existing cx _ name).bind
    intro old _ _
    apply (ask _ _).bind
    intro value _ _
    exact (convert cx name value _).bind fun value _ _ => .pure _

theorem carryOut (cx : Context σ) (name : String) (a : Assignment) :
    Keeps s (SessionM.carryOut cx name a) := by
  apply (ask _ _).bind
  intro _ _ _
  apply (existing cx _ name).bind
  intro updated _ _
  refine (modify ?_).bind fun _ _ _ => get_bind (.pure _)
  rfl

theorem setVariable (cx : Context σ) (h : Handle) (name expression : String) :
    Keeps s (SessionM.setVariable cx h name expression) :=
  (toAssign cx h name expression).bind fun a _ _ => carryOut cx name a

theorem evaluate (cx : Context σ) (expression : String) (frame : Nat) :
    Keeps s (SessionM.evaluate cx expression frame) := by
  unfold SessionM.evaluate
  apply (read _).bind
  intro _ t _
  apply get_bind
  dsimp only
  split
  · exact (throw _).bind fun _ _ _ => (ask _ _).bind fun _ _ _ =>
      (makeVariable _ _ _ _).bind fun _ _ _ => .pure _
  · exact (ask _ _).bind fun _ _ _ => (makeVariable _ _ _ _).bind fun _ _ _ => .pure _

theorem onRegistry (f : Registry → EngineM σ (α × Registry)) : Keeps s (SessionM.onRegistry f) := by
  apply get_bind
  apply (lift (f s.registry)).bind
  intro a t ht
  apply set_bind
  · exact ht.symm.trans rfl
  · exact .pure a.1

end Keeps
end SessionM

theorem Request.serve_sameHalt (r : Request) (cx : Context σ) (home : Home) {s t : Session}
    {e e' : σ} {result : Except SessionError Answer}
    (h : ((r.serve cx home).run.run s).run e = (some (result, t), e')) : s.SameHalt t := by
  have hk : SessionM.Keeps s (r.serve cx home) := by
    cases r with
    | setLineBreakpoints path requests =>
      rw [Request.serve]
      exact (SessionM.Keeps.onRegistry _).map _
    | setCommandBreakpoints requests =>
      rw [Request.serve]
      exact (SessionM.Keeps.onRegistry _).map _
    | removeAllBreakpoints =>
      rw [Request.serve]
      exact .onRegistry _
    | expand handle =>
      rw [Request.serve]
      exact (SessionM.Keeps.expand cx handle).map _
    | setVariable handle name expression =>
      rw [Request.serve]
      exact (SessionM.Keeps.setVariable cx handle name expression).map _
    | evaluate expression frame =>
      rw [Request.serve]
      exact (SessionM.Keeps.evaluate cx expression frame).map _
  exact hk e result t e' h

end Stepwise
