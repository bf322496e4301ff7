import Stepwise.Proofs.Engine.Returns
import Stepwise.Proofs.Session.Serving

namespace Stepwise.SessionM

variable {σ α β : Type} {s : Session} {e u : σ}
  {P : Except SessionError α → Session → σ → Prop} {Q : Except SessionError β → Session → σ → Prop}

/-- The work ends, and so. -/
def Ends (m : SessionM σ α) (s : Session) (e : σ) (P : Except SessionError α → Session → σ → Prop) :
    Prop :=
  ∃ r t u, (m.run.run s).run e = (some (r, t), u) ∧ P r t u

namespace Ends

theorem mono {m : SessionM σ α} {P' : Except SessionError α → Session → σ → Prop}
    (h : Ends m s e P) (hp : ∀ r t u, P r t u → P' r t u) : Ends m s e P' := by
  obtain ⟨r, t, u, hr, h⟩ := h
  exact ⟨r, t, u, hr, hp r t u h⟩

theorem pure {a : α} (h : P (.ok a) s e) : Ends (pure a) s e P :=
  ⟨_, s, e, rfl, h⟩

theorem throw {x : SessionError} (h : P (.error x) s e) : Ends (throw x) s e P :=
  ⟨_, s, e, rfl, h⟩

theorem bind {m : SessionM σ α} {f : α → SessionM σ β} (hm : Ends m s e P)
    (ok : ∀ a t u, P (.ok a) t u → Ends (f a) t u Q)
    (error : ∀ x t u, P (.error x) t u → Q (.error x) t u) : Ends (m >>= f) s e Q := by
  obtain ⟨⟨x⟩ | ⟨a⟩, t, u, hr, h⟩ := hm
  · exact ⟨.error x, t, u, by rw [run_bind, hr], error x t u h⟩
  · obtain ⟨r, t', u', hr', h'⟩ := ok a t u h
    refine ⟨r, t', u', ?_, h'⟩
    rw [run_bind, hr]
    exact hr'

theorem map {m : SessionM σ α} {f : α → β} (hm : Ends m s e P)
    (ok : ∀ a t u, P (.ok a) t u → Q (.ok (f a)) t u)
    (error : ∀ x t u, P (.error x) t u → Q (.error x) t u) : Ends (f <$> m) s e Q := by
  rw [map_eq_pure_bind]
  exact hm.bind (fun a t u h => .pure (ok a t u h)) error

theorem throw_bind {x : SessionError} {f : α → SessionM σ β} (h : Q (.error x) s e) :
    Ends (MonadExcept.throw x >>= f) s e Q :=
  ⟨_, s, e, rfl, h⟩

theorem get_bind {f : Session → SessionM σ β} (h : Ends (f s) s e Q) : Ends (get >>= f) s e Q := by
  obtain ⟨r, t, u, hr, hq⟩ := h
  refine ⟨r, t, u, ?_, hq⟩
  rw [run_bind]
  exact hr

theorem set_bind {t : Session} {f : PUnit → SessionM σ β} (h : Ends (f ⟨⟩) t e Q) :
    Ends (set t >>= f) s e Q := by
  obtain ⟨r, t, u, hr, hq⟩ := h
  refine ⟨r, t, u, ?_, hq⟩
  rw [run_bind]
  exact hr

theorem modify_bind {g : Session → Session} {f : PUnit → SessionM σ β}
    (h : Ends (f ⟨⟩) (g s) e Q) : Ends (modify g >>= f) s e Q := by
  obtain ⟨r, t, u, hr, hq⟩ := h
  refine ⟨r, t, u, ?_, hq⟩
  rw [run_bind]
  exact hr

theorem lift_bind {m : EngineM σ α} {a : α} (hm : EngineM.Returns m e a u) {f : α → SessionM σ β}
    (h : Ends (f a) s u Q) : Ends ((m : SessionM σ α) >>= f) s e Q := by
  obtain ⟨r, t, u, hr, hq⟩ := h
  refine ⟨r, t, u, ?_, hq⟩
  rw [EngineM.Returns] at hm
  rw [run_bind, run_lift, hm]
  exact hr

theorem read_bind {g : Session → Except SessionError α} {a : α} (hg : g s = .ok a)
    {f : α → SessionM σ β} (h : Ends (f a) s e Q) : Ends (read g >>= f) s e Q := by
  refine bind (P := fun r t w => r = .ok a ∧ t = s ∧ w = e) ?_ ?_ ?_
  · refine get_bind ?_
    rw [hg]
    exact .pure ⟨rfl, rfl, rfl⟩
  · rintro _ _ _ ⟨⟨⟩, rfl, rfl⟩
    exact h
  · rintro _ _ _ ⟨⟨⟩, _⟩

theorem read_error {g : Session → Except SessionError α} {x : SessionError} (hg : g s = .error x)
    {f : α → SessionM σ β} (h : Q (.error x) s e) : Ends (read g >>= f) s e Q := by
  refine bind (P := fun r t w => r = .error x ∧ t = s ∧ w = e) ?_ ?_ ?_
  · refine get_bind ?_
    rw [hg]
    exact .throw ⟨rfl, rfl, rfl⟩
  · rintro _ _ _ ⟨⟨⟩, _⟩
  · rintro _ _ _ ⟨⟨⟩, rfl, rfl⟩
    exact h

theorem ask_bind {m : EngineM σ (Except EngineError α)} {a : α}
    (hm : EngineM.Returns m e (.ok a) u) (onError : EngineError → SessionError)
    {f : α → SessionM σ β} (h : Ends (f a) s u Q) : Ends (ask m onError >>= f) s e Q := by
  refine bind (P := fun r t w => r = .ok a ∧ t = s ∧ w = u) ?_ ?_ ?_
  · exact lift_bind hm (.pure ⟨rfl, rfl, rfl⟩)
  · rintro _ _ _ ⟨⟨⟩, rfl, rfl⟩
    exact h
  · rintro _ _ _ ⟨⟨⟩, _⟩

theorem ask_error {m : EngineM σ (Except EngineError α)} {report : EngineError}
    (hm : EngineM.Returns m e (.error report) u) (onError : EngineError → SessionError)
    {f : α → SessionM σ β} (h : Q (.error (onError report)) s u) :
    Ends (ask m onError >>= f) s e Q := by
  refine bind (P := fun r t w => r = .error (onError report) ∧ t = s ∧ w = u) ?_ ?_ ?_
  · exact lift_bind hm (.throw ⟨rfl, rfl, rfl⟩)
  · rintro _ _ _ ⟨⟨⟩, _⟩
  · rintro _ _ _ ⟨⟨⟩, rfl, rfl⟩
    exact h

end Ends
end Stepwise.SessionM
