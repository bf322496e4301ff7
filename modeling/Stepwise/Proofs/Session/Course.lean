import Stepwise.Proofs.History
import Stepwise.Proofs.Session.Departing

namespace Stepwise

/-- One step of an interleaving. -/
structure Leg (E : Engine) where
  before : System E
  action : System.Action
  after : System E

namespace System

variable {E : Engine} {r s t u : System E} {legs more before after : List (Leg E)} {leg : Leg E}

/-- The steps from one state to another one. -/
inductive Course (s : System E) : List (Leg E) → System E → Prop
  | rest : Course s [] s
  | step {legs : List (Leg E)} {t u : System E} (a : Action) (h : Course s legs t)
    (hs : t.step a = some u) : Course s (legs ++ [⟨t, a, u⟩]) u

/-- The steps of a list, if each of them can be taken, and where they lead. -/
def travel (s : System E) : List Action → Option (List (Leg E) × System E)
  | [] => some ([], s)
  | a :: rest =>
    (s.step a).bind fun t => (t.travel rest).map fun (legs, u) => (⟨s, a, t⟩ :: legs, u)

namespace Course

theorem reaches (hr : Reaches r s) (h : s.Course legs t) : Reaches r t := by
  induction h with
  | rest => exact hr
  | step a _ hs ih => exact ih.step a hs

theorem of_reaches (h : Reaches s t) : ∃ legs, s.Course legs t := by
  induction h with
  | refl => exact ⟨[], .rest⟩
  | step a _ hs ih =>
    obtain ⟨legs, hc⟩ := ih
    exact ⟨_, hc.step a hs⟩

theorem append (h : s.Course legs t) (h' : t.Course more u) : s.Course (legs ++ more) u := by
  induction h' with
  | rest => simpa using h
  | step a _ hs ih =>
    rw [← List.append_assoc]
    exact ih.step a hs

theorem cons {a : Action} (hs : s.step a = some t) (h : t.Course legs u) :
    s.Course (⟨s, a, t⟩ :: legs) u :=
  (Course.rest.step a hs).append h

/-- A step with the way to it and the way on from it. -/
theorem split (h : s.Course (before ++ leg :: after) t) :
    s.Course before leg.before ∧ leg.before.step leg.action = some leg.after ∧
      leg.after.Course after t := by
  generalize hl : before ++ leg :: after = legs at h
  induction h generalizing after with
  | rest => simp at hl
  | @step legs t u a h hs ih =>
    rcases append_cons_eq_snoc hl with ⟨rfl, rfl, rfl⟩ | ⟨rest, rfl, hr⟩
    · exact ⟨h, hs, .rest⟩
    · obtain ⟨hb, hm, ha⟩ := ih hr
      exact ⟨hb, hm, ha.step a hs⟩

theorem of_travel {actions : List Action} (h : s.travel actions = some (legs, t)) :
    s.Course legs t := by
  induction actions generalizing s legs with
  | nil =>
    cases h
    exact .rest
  | cons a rest ih =>
    obtain ⟨u, hu, h⟩ := Option.bind_eq_some_iff.mp h
    obtain ⟨⟨onward, v⟩, hv, h⟩ := Option.map_eq_some_iff.mp h
    cases h
    exact .cons hu (ih hv)

theorem exists_of_travel {actions : List Action} {p : List (Leg E) × System E → Bool}
    (h : (s.travel actions).any p = true) : ∃ legs t, s.Course legs t ∧ p (legs, t) = true := by
  cases ht : s.travel actions with
  | none =>
    rw [ht] at h
    cases h
  | some way =>
    rw [ht] at h
    exact ⟨way.1, way.2, .of_travel ht, h⟩

end Course
end System
end Stepwise
