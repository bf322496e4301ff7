import Stepwise.Proofs.Script.Observing
import Stepwise.Proofs.Script.Places

namespace Stepwise
namespace Script

/-- Computations over the engine's context. -/
inductive Working : {α : Type} → EngineM State α → Prop
  | observing {α : Type} {m : EngineM State α} (h : Observing m) : Working m
  | assign (scope : Scope) (name : String) (value : Description) :
    Working (context.assign scope name value)
  | bind {α β : Type} {m : EngineM State α} {f : α → EngineM State β} :
    Working m → (∀ a, Working (f a)) → Working (m >>= f)

namespace State

/-- The scripts of the frames, the innermost first. -/
def paths (s : State) : List (Option Path) :=
  s.frames.map (·.path)

theorem length_paths (s : State) : s.paths.length = s.frames.length :=
  List.length_map _

/-- Only the variables of a frame are written. -/
theorem paths_withScope (s : State) (scope : Scope) (vars : Variables) :
    (s.withScope scope vars).paths = s.paths := by
  cases scope with
  | locals index =>
    cases hf : s.frames[index]? with
    | none => simp [withScope, hf]
    | some f =>
      cases hl : f.locals with
      | none => simp [withScope, hf, hl, paths]
      | some locals =>
        have hp : (s.frames.map (·.path))[index]? = some f.path := by simp [hf]
        rw [withScope_locals hf hl, paths, List.map_set]
        refine List.ext_getElem? fun j => ?_
        by_cases hj : index = j
        · subst hj
          rw [List.getElem?_set_self (List.getElem?_eq_some_iff.mp hp).1, paths, hp]
        · rw [List.getElem?_set_ne hj, paths]
  | script index | global => rfl

theorem paths_store {s t : State} {scope : Scope} {name : String} {value : Value}
    {declared : Option String} (h : s.store scope name value declared = .ok t) :
    t.paths = s.paths := by
  obtain ⟨_, _, _, _, _, _, rfl⟩ := exists_of_store h
  exact paths_withScope s scope _

/-- What neither telling nor storing values changes. -/
structure Fixed {β : Type} (f : State → β) : Prop where
  alike {s t : State} : s.Alike t → f t = f s
  store {s t : State} {scope : Scope} {name : String} {value : Value} {declared : Option String} :
    s.store scope name value declared = .ok t → f t = f s

theorem paths_fixed : Fixed paths where
  alike h := by rw [paths, h.frames, paths]
  store := paths_store

theorem length_frames_store {s t : State} {scope : Scope} {name : String} {value : Value}
    {declared : Option String} (h : s.store scope name value declared = .ok t) :
    t.frames.length = s.frames.length := by
  rw [← length_paths, paths_store h, length_paths]

end State

/-- A relation of states that telling, work on breakpoints and storing values lead along. -/
structure State.Worked (R : State → State → Prop) : Prop extends State.Observed R where
  store {s t : State} {scope : Scope} {name : String} {value : Value} {declared : Option String} :
    s.store scope name value declared = .ok t → R s t

theorem Working.leaves {R : State → State → Prop} (hR : State.Worked R) {α : Type}
    {m : EngineM State α} (h : Working m) : Leaves R m := by
  have hT := hR.toTold
  induction h with
  | observing h => exact h.leaves hR.toObserved
  | assign scope name value =>
    refine .answer hT fun s r hr => ?_
    obtain ⟨v, _, hr⟩ := Except.bind_eq_ok_iff.mp hr
    obtain ⟨t, hstore, hr⟩ := Except.bind_eq_ok_iff.mp hr
    cases hr
    exact hR.store hstore
  | bind _ _ ihm ihf => exact ihm.bind hT ihf

theorem State.Fixed.worked {β : Type} {f : State → β} (hf : State.Fixed f) :
    State.Worked fun s t => f t = f s where
  refl _ := rfl
  trans h h' := h'.trans h
  describe s v := hf.alike (s.describe_alike v)
  register s breakpoints lastId := hf.alike (State.Alike.dressed s breakpoints lastId s.arena)
  store := hf.store

theorem Working.fixed {α β : Type} {f : State → β} (hf : State.Fixed f) {m : EngineM State α}
    (h : Working m) (s : State) : f (m.run s).2 = f s :=
  h.leaves hf.worked s

theorem Working.length_frames {α : Type} {m : EngineM State α} (h : Working m) (s : State) :
    (m.run s).2.frames.length = s.frames.length := by
  rw [← State.length_paths, h.fixed State.paths_fixed, State.length_paths]

end Script

variable {catalog : Script.Catalog} {η : Type}

/-- Works through the context, at safe points and at halts; it has no answer if its work takes the
engine's thread down.  It may go on from a halt as it likes, and request breaks or to abort. -/
structure Handler.Works (handler : Handler (scriptEngine catalog) η) : Prop where
  safePoint (memory : η) (s : Script.State) (i : Interrupts) :
    ∃ work : EngineM Script.State Unit, Script.Working work ∧
      (handler.safePoint memory s i).map (·.2.1) = work.left? s
  halt (halt : Halt) (memory : η) (s : Script.State) (i : Interrupts) :
    ∃ work : EngineM Script.State Unit, Script.Working work ∧
      (handler.halt halt memory s i).map (·.2.2.1) = work.left? s

theorem Script.Working.length_frames_of_left? {work : EngineM Script.State Unit}
    (h : Script.Working work) {s t : Script.State} (ht : work.left? s = some t) :
    t.frames.length = s.frames.length := by
  obtain ⟨_, _, rfl⟩ := Option.map_eq_some_iff.mp ht
  exact h.length_frames s

namespace Handler.Works

variable {handler : Handler (scriptEngine catalog) η} {memory : η} {s : Script.State}
  {i : Interrupts}

theorem safePoint_frames (h : handler.Works) {answer : η × Script.State × Interrupts}
    (ha : handler.safePoint memory s i = some answer) :
    answer.2.1.frames.length = s.frames.length := by
  obtain ⟨work, hw, he⟩ := h.safePoint memory s i
  rw [ha] at he
  exact hw.length_frames_of_left? he.symm

theorem halt_frames (h : handler.Works) {halt : Halt}
    {answer : Resume × η × Script.State × Interrupts}
    (ha : handler.halt halt memory s i = some answer) :
    answer.2.2.1.frames.length = s.frames.length := by
  obtain ⟨work, hw, he⟩ := h.halt halt memory s i
  rw [ha] at he
  exact hw.length_frames_of_left? he.symm

end Handler.Works
end Stepwise
