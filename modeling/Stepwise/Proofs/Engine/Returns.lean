import Stepwise.Engine.Context

namespace Stepwise

theorem Except.mapError_eq_ok_iff {ε δ α : Type} {f : ε → δ} {x : Except ε α} {a : α} :
    x.mapError f = .ok a ↔ x = .ok a := by
  constructor
  · intro h
    cases x with
    | error e => cases h
    | ok b =>
      cases h
      rfl
  · rintro rfl
    rfl

theorem Except.map_eq_ok_iff {ε α β : Type} {f : α → β} {x : Except ε α} {b : β} :
    x.map f = .ok b ↔ ∃ a, x = .ok a ∧ f a = b := by
  cases x <;> simp [Except.map]

theorem Except.bind_eq_ok_iff {ε α β : Type} {f : α → Except ε β} {x : Except ε α} {b : β} :
    x >>= f = .ok b ↔ ∃ a, x = .ok a ∧ f a = .ok b := by
  cases x <;> simp [bind, Except.bind]

namespace EngineM

variable {σ α β : Type} {m : EngineM σ α} {s t u : σ} {a : α} {b : β}

theorem run_bind (m : EngineM σ α) (f : α → EngineM σ β) (s : σ) :
    (m >>= f).run s =
      match m.run s with
      | (none, s) => (none, s)
      | (some a, s) => (f a).run s := by
  simp only [OptionT.run, bind, OptionT.bind, OptionT.mk, StateT.bind]
  rcases m s with ⟨_ | a, t⟩ <;> rfl

/-- The operation answers with a value and leaves a state; it does not take the thread down. -/
def Returns (m : EngineM σ α) (s : σ) (a : α) (t : σ) : Prop :=
  m.run s = (some a, t)

theorem Returns.pure (a : α) (s : σ) : Returns (pure a : EngineM σ α) s a s := rfl

theorem Returns.bind {f : α → EngineM σ β} (hm : Returns m s a t) (hf : Returns (f a) t b u) :
    Returns (m >>= f) s b u := by
  rw [Returns, run_bind, hm]
  exact hf

theorem Returns.of_bind {f : α → EngineM σ β} (h : Returns (m >>= f) s b u) :
    ∃ a t, Returns m s a t ∧ Returns (f a) t b u := by
  rw [Returns, run_bind] at h
  rcases hm : m.run s with ⟨_ | a, t⟩
  · rw [hm] at h
    cases h
  · rw [hm] at h
    exact ⟨a, t, hm, h⟩

theorem Returns.unique {c : α} (h : Returns m s a t) (h' : Returns m s c u) : a = c ∧ t = u := by
  cases h.symm.trans h'
  exact ⟨rfl, rfl⟩

/-- The state that the work leaves, unless it takes the thread down. -/
def left? (m : EngineM σ Unit) (s : σ) : Option σ :=
  (m.run s).1.map fun _ => (m.run s).2

/-- Whether the operation answers, and the check passes on the answer and the state it leaves. -/
def answers (m : EngineM σ α) (s : σ) (check : α → σ → Bool) : Bool :=
  match m.run s with
  | (some a, t) => check a t
  | (none, _) => false

theorem exists_of_answers {check : α → σ → Bool} (h : m.answers s check = true) :
    ∃ a t, Returns m s a t ∧ check a t = true := by
  unfold answers at h
  split at h
  · next a t hrun => exact ⟨a, t, hrun, h⟩
  · cases h

end EngineM
end Stepwise
