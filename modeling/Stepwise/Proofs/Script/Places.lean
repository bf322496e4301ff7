import Stepwise.Proofs.Engine.Returns
import Stepwise.Proofs.Script.Reporting

namespace Stepwise
open Text

/-- The scope exists where there are so many frames. -/
def Scope.Within (depth : Nat) : Scope → Prop
  | .locals index => index < depth
  | .script index => (index + 1) % wordBound ≤ depth
  | .global => True

/-- Both scopes of a frame exist where the frame does. -/
theorem Scope.within_of_lt {index depth : Nat} (h : index < depth) :
    (Scope.locals index).Within depth ∧ (Scope.script index).Within depth :=
  ⟨h, Nat.le_trans (Nat.mod_le _ _) h⟩

/-- The value as a variable of the type holds it. -/
def Value.convert (enums : Enumerations) (type : Option String) (v : Value) :
    Except ScriptError Value :=
  match type with
  | none => .ok v
  | some type => v.coerce enums type

theorem Value.convert_idem {enums : Enumerations} {type : Option String} {v w : Value}
    (h : v.convert enums type = .ok w) : w.convert enums type = .ok w := by
  cases type with
  | none => rfl
  | some type => exact coerce_idem h

namespace Script

/-- Where variables are kept. -/
inductive Storage where
  | globals
  | script
  | locals (frame : Nat)
deriving Repr, DecidableEq

structure Place where
  storage : Storage
  position : Nat
deriving Repr, DecidableEq

namespace Variables

variable {vars : Variables} {name : String} {old : Variable}

/-- The first variable of the name, which takes the values that are put there. -/
theorem exists_first (h : vars.find? name = some old) :
    ∃ k, vars.findIdx? (fun v => sameName v.name name) = some k ∧ vars[k]? = some old ∧
      ∀ value, vars.put name value old.declaredType = vars.set k { old with value } := by
  induction vars with
  | nil => cases h
  | cons v rest ih =>
    cases hv : sameName v.name name with
    | true =>
      obtain rfl : v = old := by simpa [find?, hv] using h
      exact ⟨0, by simp [List.findIdx?_cons, hv], rfl, fun value => by simp [put, hv]⟩
    | false =>
      obtain ⟨k, hk, ho, hp⟩ := ih (by simpa [find?, hv] using h)
      exact ⟨k + 1, by simp [List.findIdx?_cons, hv, hk], ho, fun value => by simp [put, hv, hp]⟩

theorem find?_put (h : vars.find? name = some old) (value : Value) :
    (vars.put name value old.declaredType).find? name = some { old with value } := by
  induction vars with
  | nil => cases h
  | cons v rest ih =>
    cases hv : sameName v.name name with
    | true =>
      obtain rfl : v = old := by simpa [find?, hv] using h
      simp [put, find?, hv]
    | false =>
      have hr := ih (by simpa [find?, hv] using h)
      simpa [put, find?, hv] using hr

/-- What is put under a name is found under it. -/
theorem exists_find?_put (vars : Variables) (name : String) (value : Value)
    (declaredType : Option String) :
    ∃ v, (vars.put name value declaredType).find? name = some v ∧ v.value = value := by
  induction vars with
  | nil => exact ⟨{ name, value, declaredType }, by simp [put, find?], rfl⟩
  | cons v rest ih =>
    cases hv : sameName v.name name with
    | true => exact ⟨{ v with value, declaredType }, by simp [put, find?, hv], rfl⟩
    | false =>
      obtain ⟨found, hf, hw⟩ := ih
      exact ⟨found, by simpa [put, find?, hv] using hf, hw⟩

end Variables

namespace State

variable {s t : State} {scope : Scope} {vars : Variables}

def held (s : State) : Storage → Variables
  | .globals => s.globals
  | .script => s.scriptVariables
  | .locals index => (s.frames[index]?.bind (·.locals)).getD []

/-- Where the variables of a scope are kept. -/
def storage (s : State) : Scope → Storage
  | .locals index => if (s.frames[index]?.bind (·.locals)).isSome then .locals index else .script
  | .script _ => .script
  | .global => .globals

/-- The variable at a place. -/
def at? (s : State) (p : Place) : Option Variable :=
  (s.held p.storage)[p.position]?

theorem reaches_eq_ok_iff {index : Nat} :
    s.reaches index = .ok () ↔ (Scope.script index).Within s.frames.length := by
  unfold reaches Scope.Within
  split
  · next h => exact iff_of_true rfl h
  · next h => exact iff_of_false nofun h

theorem frame_eq_ok_iff {index : Nat} {f : Frame} :
    s.frame index = .ok f ↔ s.frames[index]? = some f := by
  rw [frame, Except.bind_eq_ok_iff]
  constructor
  · rintro ⟨-, -, hf⟩
    split at hf <;> cases hf
    assumption
  · intro hf
    refine ⟨(), reaches_eq_ok_iff.mpr ?_, by rw [hf]⟩
    exact (Scope.within_of_lt (List.getElem?_eq_some_iff.mp hf).1).2

theorem scope_eq_ok_iff :
    s.scope scope = .ok vars ↔
      scope.Within s.frames.length ∧ vars = s.held (s.storage scope) := by
  cases scope with
  | locals index =>
    rw [State.scope, Except.bind_eq_ok_iff]
    constructor
    · rintro ⟨f, hf, ⟨⟩⟩
      replace hf := frame_eq_ok_iff.mp hf
      refine ⟨(List.getElem?_eq_some_iff.mp hf).1, ?_⟩
      cases hl : f.locals <;> simp [storage, held, hf, hl]
    · rintro ⟨hlt, rfl⟩
      have hf := List.getElem?_eq_getElem hlt
      refine ⟨_, frame_eq_ok_iff.mpr hf, ?_⟩
      cases hl : s.frames[index].locals <;> simp [storage, held, hf, hl]
  | script index =>
    rw [State.scope, Except.bind_eq_ok_iff, ← reaches_eq_ok_iff]
    constructor
    · rintro ⟨⟨⟩, hr, hv⟩
      cases hv
      exact ⟨hr, rfl⟩
    · rintro ⟨hr, rfl⟩
      exact ⟨(), hr, rfl⟩
  | global => simp [State.scope, Scope.Within, held, storage, eq_comm]

/-- Only variables are written. -/
theorem withScope_eq (s : State) (scope : Scope) (vars : Variables) :
    ∃ globals scriptVariables frames,
      s.withScope scope vars = { s with globals, scriptVariables, frames } := by
  unfold withScope
  split
  · split
    · split <;> exact ⟨_, _, _, rfl⟩
    · exact ⟨_, _, _, rfl⟩
  · exact ⟨_, _, _, rfl⟩
  · exact ⟨_, _, _, rfl⟩

@[simp] theorem arena_withScope (s : State) (scope : Scope) (vars : Variables) :
    (s.withScope scope vars).arena = s.arena := by
  obtain ⟨_, _, _, h⟩ := s.withScope_eq scope vars
  rw [h]

@[simp] theorem enums_withScope (s : State) (scope : Scope) (vars : Variables) :
    (s.withScope scope vars).enums = s.enums := by
  obtain ⟨_, _, _, h⟩ := s.withScope_eq scope vars
  rw [h]

@[simp] theorem length_frames_withScope (s : State) (scope : Scope) (vars : Variables) :
    (s.withScope scope vars).frames.length = s.frames.length := by
  unfold withScope
  split
  · split
    · split <;> simp
    · rfl
  · rfl
  · rfl

theorem withScope_locals {index : Nat} {f : Frame} (hf : s.frames[index]? = some f)
    {locals : Variables} (hl : f.locals = some locals) :
    s.withScope (.locals index) vars =
      { s with frames := s.frames.set index { f with locals := some vars } } := by
  simp [withScope, hf, hl]

/-- Whether a frame has locals of its own does not change. -/
theorem storage_withScope (s : State) (scope : Scope) (vars : Variables) :
    (s.withScope scope vars).storage = s.storage := by
  funext other
  cases scope with
  | locals index =>
    cases hf : s.frames[index]? with
    | none => simp [withScope, hf]
    | some f =>
      cases hl : f.locals with
      | none => cases other <;> simp [withScope, hf, hl, storage]
      | some locals =>
        rw [withScope_locals hf hl]
        cases other with
        | locals j =>
          by_cases hj : index = j
          · subst hj
            have hlt := (List.getElem?_eq_some_iff.mp hf).1
            simp [storage, List.getElem?_set_self hlt, hf, hl]
          · simp [storage, List.getElem?_set_ne hj]
        | script | global => rfl
  | script index | global => cases other <;> rfl

theorem held_withScope (h : scope.Within s.frames.length) (vars : Variables) (storage : Storage) :
    (s.withScope scope vars).held storage =
      if storage = s.storage scope then vars else s.held storage := by
  cases scope with
  | locals index =>
    have hlt : index < s.frames.length := h
    have hf := List.getElem?_eq_getElem hlt
    cases hl : s.frames[index].locals with
    | none => cases storage <;> simp [withScope, hf, hl, State.storage, held]
    | some locals =>
      rw [withScope_locals hf hl]
      cases storage with
      | locals j =>
        by_cases hj : index = j
        · subst hj
          simp [State.storage, held, hl, hlt]
        · simp [State.storage, held, hf, hl, List.getElem?_set_ne hj, Ne.symm hj]
      | globals | script => simp [State.storage, held, hf, hl]
  | script index | global => cases storage <;> simp [withScope, State.storage, held]

theorem scope_withScope (h : s.scope scope = .ok vars) (new : Variables) :
    (s.withScope scope new).scope scope = .ok new := by
  have hin := (scope_eq_ok_iff.mp h).1
  refine scope_eq_ok_iff.mpr ⟨by rwa [length_frames_withScope], ?_⟩
  rw [storage_withScope, held_withScope hin, if_pos rfl]

/-- A value that is stored is put in the scope as a variable of the type holds it. -/
theorem exists_of_store {name : String} {value : Value} {declared : Option String}
    (h : s.store scope name value declared = .ok t) :
    ∃ vars type w, s.scope scope = .ok vars ∧
      type = declared.or ((vars.find? name).bind (·.declaredType)) ∧
      value.convert s.enums type = .ok w ∧ t = s.withScope scope (vars.put name w type) := by
  cases hv : s.scope scope with
  | error e => simp [store, hv, Bind.bind, Except.bind] at h
  | ok vars =>
    generalize ht : declared.or ((vars.find? name).bind (·.declaredType)) = type
    have hb : (do
        let w ← value.convert s.enums type
        .ok (s.withScope scope (vars.put name w type))) = .ok t := by
      rw [← h, store, hv, ← ht]
      simp only [Bind.bind, Except.bind]
      cases declared with
      | none => cases (vars.find? name).bind (·.declaredType) <;> rfl
      | some type => rfl
    cases hw : value.convert s.enums type with
    | error e =>
      rw [hw] at hb
      cases hb
    | ok w =>
      rw [hw] at hb
      exact ⟨vars, type, w, rfl, ht.symm, hw, (Except.ok.inj hb).symm⟩

/-- Assigning to a variable converts the value to the type of the variable. -/
theorem store_eq {name : String} {old : Variable} (hs : s.scope scope = .ok vars)
    (ho : vars.find? name = some old) (value : Value) :
    s.store scope name value none =
      (value.convert s.enums old.declaredType).map fun w =>
        s.withScope scope (vars.put name w old.declaredType) := by
  simp only [store, hs, ho, Bind.bind, Except.bind, Option.bind_some]
  cases old.declaredType with
  | none => rfl
  | some type => cases hw : value.coerce s.enums type <;> simp [Value.convert, Except.map, hw]

theorem store_eq_ok {name : String} {value : Value} {old : Variable}
    (h : s.store scope name value none = .ok t) (hs : s.scope scope = .ok vars)
    (ho : vars.find? name = some old) :
    ∃ w, value.convert s.enums old.declaredType = .ok w ∧
      t = s.withScope scope (vars.put name w old.declaredType) := by
  rw [store_eq hs ho] at h
  cases hw : value.convert s.enums old.declaredType with
  | error e =>
    rw [hw] at h
    cases h
  | ok w =>
    rw [hw] at h
    cases h
    exact ⟨w, rfl, rfl⟩

end State

/-- What assigning the value of an expression to a variable of a scope changes: the value at the
place where the scope has its first variable of the name, and nothing else. -/
structure Assigned (s t : State) (scope : Scope) (name expression : String) (p : Place)
    (old : Variable) (w : Value) : Prop where
  storage : p.storage = s.storage scope
  first : (s.held p.storage).findIdx? (fun v => sameName v.name name) = some p.position
  before : s.at? p = some old
  value : ∃ v, s.evaluate scope expression = .ok v ∧ v.convert s.enums old.declaredType = .ok w
  after : t.at? p = some { old with value := w }
  others : ∀ q, q ≠ p → t.at? q = s.at? q
  scopes : t.storage = s.storage

namespace State

variable {s t : State} {scope : Scope} {vars : Variables}

theorem put_assigned {name expression : String} {old : Variable} {v w : Value}
    (hs : s.scope scope = .ok vars) (ho : vars.find? name = some old)
    (hv : s.evaluate scope expression = .ok v) (hw : v.convert s.enums old.declaredType = .ok w) :
    ∃ p, Assigned s (s.withScope scope (vars.put name w old.declaredType)) scope name expression p
      old w := by
  obtain ⟨hin, rfl⟩ := scope_eq_ok_iff.mp hs
  obtain ⟨k, hk, hat, hput⟩ := Variables.exists_first ho
  have hlt := (List.getElem?_eq_some_iff.mp hat).1
  refine ⟨⟨s.storage scope, k⟩, rfl, hk, hat, ⟨v, hv, hw⟩, ?_, ?_, storage_withScope _ _ _⟩
  · rw [hput, at?, held_withScope hin, if_pos rfl, List.getElem?_set_self hlt]
  · rintro ⟨other, i⟩ hne
    rw [hput, at?, at?, held_withScope hin]
    split
    · next he =>
      obtain rfl : other = s.storage scope := he
      have hi : k ≠ i := fun hi => hne (by rw [hi])
      exact List.getElem?_set_ne hi
    · rfl

/-- What is stored is found in the scope. -/
theorem store_assigned {name expression : String} {old : Variable} {v w : Value}
    (hs : s.scope scope = .ok vars) (ho : vars.find? name = some old)
    (hv : s.evaluate scope expression = .ok v) (hw : v.convert s.enums old.declaredType = .ok w)
    (h : s.store scope name w none = .ok t) :
    (∃ p, Assigned s t scope name expression p old w) ∧
      (∃ new, t.scope scope = .ok new ∧ new.find? name = some { old with value := w }) ∧
      t.arena = s.arena ∧ t.frames.length = s.frames.length := by
  obtain ⟨w', hw', rfl⟩ := store_eq_ok h hs ho
  -- The value has been converted already.
  rw [Value.convert_idem hw] at hw'
  obtain rfl : w = w' := Except.ok.inj hw'
  exact ⟨put_assigned hs ho hv hw, ⟨_, scope_withScope hs _, Variables.find?_put ho w⟩,
    arena_withScope _ _ _, length_frames_withScope _ _ _⟩

end State
end Script
end Stepwise
