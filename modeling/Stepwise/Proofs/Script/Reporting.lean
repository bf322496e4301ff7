import Stepwise.Script.State

namespace Stepwise

/-- Whatever goes wrong has a diagnostic. -/
def Reported {α : Type} (x : Except ScriptError α) : Prop :=
  ∀ e, x = .error e → e.report?.isSome = true

namespace Reported

variable {α β : Type} {x : Except ScriptError α}

theorem ok (a : α) : Reported (.ok a) := nofun

theorem error {e : ScriptError} (h : e.report?.isSome = true) :
    Reported (.error e : Except ScriptError α) := by
  intro e' he
  cases he
  exact h

theorem of_ok {a : α} (h : x = .ok a) : Reported x :=
  h ▸ ok a

theorem bind {f : α → Except ScriptError β} (hx : Reported x) (hf : ∀ a, Reported (f a)) :
    Reported (x >>= f) := by
  cases x with
  | ok a => exact hf a
  | error e => exact error (hx e rfl)

theorem map (f : α → β) (hx : Reported x) : Reported (x.map f) := by
  cases x with
  | ok a => exact ok (f a)
  | error e => exact error (hx e rfl)

end Reported

namespace Value

theorem toInt_reported (v : Value) : Reported v.toInt := by
  cases v with
  | str s =>
    rw [toInt]
    split
    · exact .ok _
    · exact .error rfl
  | null | bool | int => exact .ok _
  | _ => exact .error rfl

theorem coerce_reported (enums : Enumerations) (type : String) (v : Value) :
    Reported (v.coerce enums type) := by
  unfold coerce
  split
  · exact (toInt_reported v).map _
  · exact .ok _
  · exact .ok _
  · split
    · exact .ok _
    · split
      · exact .ok _
      · exact .error rfl

theorem arithmetic_reported (op : BinaryOp) (l r : Value) : Reported (arithmetic op l r) := by
  refine (toInt_reported l).bind fun m => (toInt_reported r).bind fun n => ?_
  split
  · exact .error rfl
  · split
    · exact .error rfl
    · split
      · exact .ok _
      · exact .error rfl

theorem order_reported (l r : Value) : Reported (l.order r) := by
  unfold order
  split
  · exact .ok _
  · exact (toInt_reported l).bind fun m => (toInt_reported r).bind fun n => .ok _

theorem apply_reported (op : BinaryOp) (l r : Value) : Reported (l.apply op r) := by
  cases op <;> simp only [apply]
  case add =>
    split
    · exact .ok _
    · exact arithmetic_reported _ _ _
  case sub | mul | div | mod => exact arithmetic_reported _ _ _
  case gt | ge | lt | le => exact (order_reported l r).map _
  case eq | ne | and | or => exact .ok _

/-- Converting a second time changes nothing. -/
theorem coerce_idem {enums : Enumerations} {type : String} {v w : Value}
    (h : v.coerce enums type = .ok w) : w.coerce enums type = .ok w := by
  unfold coerce at h ⊢
  split at h
  · cases hn : v.toInt with
    | error e =>
      rw [hn] at h
      cases h
    | ok n =>
      rw [hn] at h
      cases h
      rfl
  · cases h
    rfl
  · cases h
    rfl
  · split at h
    · rfl
    · next members _ =>
      split at h
      · cases h
        simp [member?]
      · cases h

end Value

theorem Expr.evaluate_reported {env : Environment} (h : ∀ name, Reported (env.valueOf name))
    (e : Expr) : Reported (e.evaluate env) := by
  induction e with
  | int n => exact .ok _
  | str s => exact .ok _
  | var name =>
    rw [evaluate]
    split
    · exact .ok _
    · exact (h name).map _
  | negate e ih => exact ih.bind fun v => v.toInt_reported.bind fun n => .ok _
  | not e ih => exact ih.bind fun v => .ok _
  | cast type e ih => exact ih.bind fun v => v.coerce_reported _ type
  | binary op l r ihl ihr =>
    refine ihl.bind fun v => ?_
    split
    · exact .ok _
    · exact .ok _
    · exact ihr.bind fun w => v.apply_reported _ w

namespace Script.State

variable {s : State} {scope : Scope}

theorem lookupChain_reported (h : Reported (s.scope scope)) (qualifier : Option String) :
    Reported (s.lookupChain scope qualifier) := by
  have unqualified : Reported (s.lookupChain scope none) := by
    cases scope with
    | locals index =>
      simp only [lookupChain]
      split
      · exact .ok _
      · next hs => exact absurd (h _ hs) (by decide)
      · exact .ok _
    | script index | global => exact .ok _
  cases qualifier with
  | none => exact unqualified
  | some q =>
    unfold lookupChain at unqualified ⊢
    dsimp only at unqualified ⊢
    split
    · exact .ok _
    · split
      · exact .ok _
      · exact unqualified

theorem evaluate_reported (h : Reported (s.scope scope)) (source : String) :
    Reported (s.evaluate scope source) := by
  unfold evaluate
  split
  · exact .error rfl
  · next e _ =>
    refine e.evaluate_reported fun name => ?_
    exact (lookupChain_reported h _).bind fun chain => .ok _

theorem store_reported (h : Reported (s.scope scope)) (name : String) (value : Value)
    (declared : Option String) : Reported (s.store scope name value declared) := by
  refine h.bind fun vars => ?_
  dsimp only
  split
  · exact (value.coerce_reported _ _).bind fun _ => .ok _
  · exact .ok _

end Script.State
end Stepwise
