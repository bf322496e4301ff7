import Stepwise.Proofs.Script.Stepping

namespace Stepwise

variable {E : Engine} {η : Type}

/-- What a run demands of its handler. -/
inductive Demand where
  | safePoint
  | halt (halt : Halt)
deriving Repr, DecidableEq

namespace Progress

/-- What the handler is called for in the next step, if it is. -/
def demand? (p : Progress E η) : Option Demand :=
  match E.next p.run p.state p.interrupts with
  | (.safePoint _, _) => some .safePoint
  | (.halted halt _, _) => some (.halt halt)
  | _ => none

end Progress

/-- Where a run is that goes on. -/
def Drive.progress? : Drive E η → Option (Progress E η)
  | .underway q => some q
  | .finished .. | .crashed _ => none

theorem Drive.progress?_eq_some_iff {d : Drive E η} {q : Progress E η} :
    d.progress? = some q ↔ d = .underway q := by
  cases d <;> simp [progress?]

namespace Engine

/-- One step of a run: what was requested before it, how it found everything, and where it led. -/
structure Stride (E : Engine) (η : Type) where
  heard : Interrupts
  found : Progress E η
  left : Drive E η

variable {handler : Handler E η} {p q : Progress E η} {l m heard : List Interrupts}

/-- The steps of a run, as many as there are requests and fewer if the run ends. -/
def strides (handler : Handler E η) (p : Progress E η) : List Interrupts → List (Stride E η)
  | [] => []
  | i :: heard =>
    ⟨i, p.hear i, advance handler (p.hear i)⟩ ::
      match advance handler (p.hear i) with
      | .underway q => strides handler q heard
      | _ => []

/-- Where these steps lead. -/
def driveHearing (handler : Handler E η) (p : Progress E η) : List Interrupts → Drive E η
  | [] => .underway p
  | i :: heard =>
    match advance handler (p.hear i) with
    | .underway q => driveHearing handler q heard
    | ended => ended

/-- What the handler is called for, in order. -/
def demands (handler : Handler E η) (p : Progress E η) (heard : List Interrupts) : List Demand :=
  (strides handler p heard).filterMap (·.found.demand?)

/-- Without requests a run is driven. -/
theorem driveHearing_replicate (handler : Handler E η) (p : Progress E η) (n : Nat) :
    driveHearing handler p (List.replicate n {}) = drive handler n p := by
  induction n generalizing p with
  | zero => rfl
  | succ n ih =>
    rw [List.replicate_succ, driveHearing, drive, show p.hear {} = p from rfl]
    cases advance handler p with
    | underway q => exact ih q
    | finished | crashed => rfl

theorem driveHearing_cons_iff {i : Interrupts} : driveHearing handler p (i :: l) = .underway q ↔
    ∃ r, advance handler (p.hear i) = .underway r ∧ driveHearing handler r l = .underway q := by
  rw [driveHearing]
  cases advance handler (p.hear i) <;> simp

theorem strides_cons {i : Interrupts} (h : advance handler (p.hear i) = .underway q) :
    strides handler p (i :: l) = ⟨i, p.hear i, .underway q⟩ :: strides handler q l := by
  rw [strides, h]

theorem driveHearing_append (h : driveHearing handler p l = .underway q) (m : List Interrupts) :
    driveHearing handler p (l ++ m) = driveHearing handler q m := by
  induction l generalizing p with
  | nil =>
    cases h
    rfl
  | cons i l ih =>
    obtain ⟨r, hr, h⟩ := driveHearing_cons_iff.mp h
    rw [List.cons_append, driveHearing, hr]
    exact ih h

theorem strides_append (h : driveHearing handler p l = .underway q) (m : List Interrupts) :
    strides handler p (l ++ m) = strides handler p l ++ strides handler q m := by
  induction l generalizing p with
  | nil =>
    cases h
    rfl
  | cons i l ih =>
    obtain ⟨r, hr, h⟩ := driveHearing_cons_iff.mp h
    rw [List.cons_append, strides_cons hr, strides_cons hr, ih h, List.cons_append]

/-- The last step leads on. -/
theorem last_of_driveHearing (h : driveHearing handler p l = .underway q) :
    (l = [] ∧ q = p) ∨
      ∃ x, (strides handler p l).getLast? = some x ∧ advance handler x.found = .underway q := by
  induction l generalizing p with
  | nil =>
    cases h
    exact .inl ⟨rfl, rfl⟩
  | cons i l ih =>
    obtain ⟨r, hr, h⟩ := driveHearing_cons_iff.mp h
    rw [strides_cons hr]
    right
    rcases ih h with ⟨rfl, rfl⟩ | ⟨x, hx, hq⟩
    · exact ⟨_, rfl, hr⟩
    · exact ⟨x, by rw [List.getLast?_cons, hx]; rfl, hq⟩

/-- A step comes after those before it. -/
theorem split_strides {before after : List (Stride E η)} {x : Stride E η}
    (h : strides handler p heard = before ++ x :: after) :
    ∃ l q m, heard = l ++ x.heard :: m ∧ strides handler p l = before ∧
      driveHearing handler p l = .underway q ∧ x.found = q.hear x.heard ∧
      x.left = advance handler x.found := by
  induction before generalizing p heard with
  | nil =>
    cases heard with
    | nil => cases h
    | cons i heard =>
      obtain ⟨rfl, _⟩ := List.cons.inj h
      exact ⟨[], p, heard, rfl, rfl, rfl, rfl, rfl⟩
  | cons y before ih =>
    cases heard with
    | nil => cases h
    | cons i heard =>
      obtain ⟨rfl, hrest⟩ := List.cons.inj h
      clear h
      split at hrest
      · next r hr =>
        obtain ⟨l, q, m, rfl, hl, hq, hx⟩ := ih hrest
        refine ⟨i :: l, q, m, rfl, ?_, ?_, hx⟩
        · rw [strides_cons hr, ← hl, hr]
        · exact driveHearing_cons_iff.mpr ⟨r, hr, hq⟩
      · cases before <;> cases hrest

end Engine
end Stepwise
