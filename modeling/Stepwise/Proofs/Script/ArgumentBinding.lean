import Mathlib
import Stepwise.Script.Engine

namespace Stepwise.Script

/-- An argument as it is read from left to right; a name comes with its value. -/
inductive Reading where
  | position (value : Value)
  | name (index : Nat) (value : Value)

/-- A switch that is named is set; any other name takes the next argument, if there is one. -/
def readings (value : String → Value) (params : List Parameter) : List String → List Reading
  | [] => []
  | token :: rest =>
    match named? params token with
    | none => .position (value token) :: readings value params rest
    | some i =>
      if params[i]?.any (·.isSwitch) then .name i (.switch true) :: readings value params rest
      else
        match rest with
        | [] => [.name i .null]
        | next :: rest => .name i (value next) :: readings value params rest

def Reading.position? : Reading → Option Value
  | .position value => some value
  | .name _ _ => none

def Reading.index? : Reading → Option Nat
  | .position _ => none
  | .name i _ => some i

/-- The first phase: names give values, the last one of a parameter counts. -/
def nameAll : List Reading → List (Option Value) → List (Option Value)
  | [], slots => slots
  | .position _ :: rest, slots => nameAll rest slots
  | .name i v :: rest, slots => nameAll rest (slots.set i (some v))

def Parameter.accepts (p : Parameter) (slot : Option Value) : Bool :=
  !p.isSwitch && slot.isNone

def Binding.after (b : Binding) (slot : Option Value) : Binding :=
  { b with bound := slot :: b.bound }

/-- The second phase: values fill the parameters that are no switches and have none, in the order of
their declaration; the rest is left over. -/
def fill : List Parameter → List (Option Value) → List Value → Binding
  | p :: params, slot :: slots, v :: values =>
    if p.accepts slot then (fill params slots values).after (some v)
    else (fill params slots (v :: values)).after slot
  | _, slots, values => ⟨slots, values⟩

def unbound (params : List Parameter) : List (Option Value) :=
  params.map fun _ => none

/-- The variables of a script whose parameters are bound. -/
def Binding.variables (params : List Parameter) (b : Binding) : Variables :=
  (params.zip b.bound).map (fun (p, v) =>
    { name := p.name, value := v.getD (if p.isSwitch then .switch false else .null) }) ++
    [{ name := "$args", value := .array b.leftOver, automatic := true }]

/-- What the arguments are bound to by name first and by position after that. -/
def inPhases (params : List Parameter) (rs : List Reading) : Binding :=
  fill params (nameAll rs (unbound params)) (rs.filterMap Reading.position?)

def bindInPhases (value : String → Value) (params : List Parameter) (arguments : List String) :
    Variables :=
  (inPhases params (readings value params arguments)).variables params

def Binding.accept (params : List Parameter) (b : Binding) : Reading → Binding
  | .position v => b.place params v
  | .name i v => b.give i v

def freeIn? (params : List Parameter) (slots : List (Option Value)) : Option Nat :=
  (params.zip slots).findIdx? fun (p, slot) => p.accepts slot

/-- The values given by position that are not lost: a value is if its parameter is named later. -/
def kept (params : List Parameter) : List Reading → List (Option Value) → List Value
  | [], _ => []
  | .name i v :: rest, slots => kept params rest (slots.set i (some v))
  | .position v :: rest, slots =>
    match freeIn? params slots with
    | none => v :: kept params rest slots
    | some i =>
      if some i ∈ rest.map Reading.index? then kept params rest (slots.set i (some v))
      else v :: kept params rest (slots.set i (some v))

variable {params : List Parameter} {slots : List (Option Value)} {values : List Value} {v : Value}
  {value : String → Value} {rs : List Reading} {i : Nat} {b : Binding}

namespace Binding

theorem take_eq_foldl (value : String → Value) (params : List Parameter) (arguments : List String)
    (b : Binding) :
    take value params arguments b = (readings value params arguments).foldl (accept params) b := by
  induction arguments using readings.induct params generalizing b with
  | case1 => rfl
  | case2 token rest hn ih => simp only [take, readings, hn, List.foldl_cons, accept, ih]
  | case3 token rest i hn hs ih =>
    simp only [take, readings, hn, hs, if_true, List.foldl_cons, accept, ih]
  | case4 token i hn hs => simp [take, readings, hn, hs, accept]
  | case5 token i hn hs next rest ih =>
    simp only [take, readings, hn, hs, ih]
    rfl

theorem free?_eq (params : List Parameter) (b : Binding) :
    b.free? params = freeIn? params b.bound :=
  rfl

end Binding

theorem freeIn?_cons (p : Parameter) (params : List Parameter) (slot : Option Value)
    (slots : List (Option Value)) :
    freeIn? (p :: params) (slot :: slots) =
      if p.accepts slot then some 0 else (freeIn? params slots).map (· + 1) := by
  simp [freeIn?, List.findIdx?_cons]

theorem Parameter.accepts_some (p : Parameter) (v : Value) : p.accepts (some v) = false := by
  simp [accepts]

/-- A parameter that gets a value is not free any more; about the others nothing changes. -/
theorem freeIn?_set_none (h : freeIn? params slots = none) (j : Nat) (v : Value) :
    freeIn? params (slots.set j (some v)) = none := by
  induction params generalizing slots j with
  | nil => simp [freeIn?]
  | cons p params ih =>
    cases slots with
    | nil => exact h
    | cons slot slots =>
      rw [freeIn?_cons] at h
      split at h
      · cases h
      next hp =>
      cases j with
      | zero =>
        rw [List.set_cons_zero, freeIn?_cons, p.accepts_some]
        exact h
      | succ j =>
        rw [List.set_cons_succ, freeIn?_cons, if_neg hp, ih (Option.map_eq_none_iff.mp h) j]
        rfl

theorem freeIn?_set_some (h : freeIn? params slots = some i) {j : Nat} (hj : j ≠ i) (v : Value) :
    freeIn? params (slots.set j (some v)) = some i := by
  induction params generalizing slots i j with
  | nil => simp [freeIn?] at h
  | cons p params ih =>
    cases slots with
    | nil => simp [freeIn?] at h
    | cons slot slots =>
      rw [freeIn?_cons] at h
      split at h
      · next hp =>
        cases h
        obtain ⟨j, rfl⟩ := Nat.exists_eq_succ_of_ne_zero hj
        rw [List.set_cons_succ, freeIn?_cons, if_pos hp]
      · next hp =>
        obtain ⟨i, hi, rfl⟩ := Option.map_eq_some_iff.mp h
        cases j with
        | zero =>
          rw [List.set_cons_zero, freeIn?_cons, p.accepts_some]
          exact h
        | succ j =>
          rw [List.set_cons_succ, freeIn?_cons, if_neg hp, ih hi (by omega)]
          rfl

theorem fill_nil (params : List Parameter) (slots : List (Option Value)) :
    fill params slots [] = ⟨slots, []⟩ := by
  cases params <;> cases slots <;> rfl

/-- A parameter that is not free is passed over. -/
theorem fill_of_not_accepts {p : Parameter} {slot : Option Value} (hp : p.accepts slot = false)
    (params : List Parameter) (slots : List (Option Value)) (values : List Value) :
    fill (p :: params) (slot :: slots) values = (fill params slots values).after slot := by
  cases values with
  | nil => rw [fill_nil, fill_nil, Binding.after]
  | cons v values => rw [fill, if_neg (by simp [hp])]

/-- Without a free parameter all values are left over. -/
theorem fill_of_full (h : freeIn? params slots = none) (values : List Value) :
    fill params slots values = ⟨slots, values⟩ := by
  induction params generalizing slots with
  | nil => rfl
  | cons p params ih =>
    cases slots with
    | nil => rfl
    | cons slot slots =>
      rw [freeIn?_cons] at h
      split at h
      · cases h
      next hp =>
      rw [fill_of_not_accepts (Bool.eq_false_iff.mpr hp), ih (Option.map_eq_none_iff.mp h)]
      rfl

/-- The first value fills the first free parameter. -/
theorem fill_cons_of_free (h : freeIn? params slots = some i) (v : Value) (values : List Value) :
    fill params slots (v :: values) = fill params (slots.set i (some v)) values := by
  induction params generalizing slots i with
  | nil => simp [freeIn?] at h
  | cons p params ih =>
    cases slots with
    | nil => simp [freeIn?] at h
    | cons slot slots =>
      rw [freeIn?_cons] at h
      split at h
      · next hp =>
        cases h
        rw [fill, if_pos hp, List.set_cons_zero, fill_of_not_accepts (p.accepts_some v)]
      · next hp =>
        obtain ⟨i, hi, rfl⟩ := Option.map_eq_some_iff.mp h
        have hp := Bool.eq_false_iff.mpr hp
        rw [List.set_cons_succ, fill_of_not_accepts hp, fill_of_not_accepts hp, ih hi]

/-- How many values there are. -/
def Binding.count (b : Binding) : Nat :=
  b.bound.countP (·.isSome) + b.leftOver.length

/-- Filling loses no value. -/
theorem count_fill (params : List Parameter) (slots : List (Option Value)) (values : List Value) :
    (fill params slots values).count = slots.countP (·.isSome) + values.length := by
  induction params, slots, values using fill.induct with
  | case1 p params slot slots v values hp ih =>
    have hs : slot.isSome = false := by simp_all [Parameter.accepts]
    rw [Binding.count] at ih ⊢
    rw [fill, if_pos hp, Binding.after]
    simp only [List.countP_cons, hs, Option.isSome_some, List.length_cons]
    simp
    omega
  | case2 p params slot slots v values hp ih =>
    rw [Binding.count] at ih ⊢
    rw [fill, if_neg hp, Binding.after]
    simp only [List.countP_cons]
    omega
  | case3 => rw [fill]; rfl; assumption

/-- The value that a parameter has before it is named does not count. -/
theorem nameAll_set_of_named (h : some i ∈ rs.map Reading.index?) (slots : List (Option Value))
    (v : Value) : nameAll rs (slots.set i (some v)) = nameAll rs slots := by
  induction rs generalizing slots with
  | nil => cases h
  | cons r rest ih =>
    cases r with
    | position w =>
      rw [List.map_cons, Reading.index?, List.mem_cons] at h
      exact ih (h.resolve_left nofun) slots
    | name j w =>
      rw [nameAll, nameAll]
      by_cases hj : i = j
      · rw [hj, List.set_set]
      · rw [List.map_cons, Reading.index?, List.mem_cons, Option.some.injEq] at h
        rw [List.set_comm _ _ hj, ih (h.resolve_left hj)]

theorem nameAll_set_of_unnamed (h : some i ∉ rs.map Reading.index?) (slots : List (Option Value))
    (v : Value) : nameAll rs (slots.set i (some v)) = (nameAll rs slots).set i (some v) := by
  induction rs generalizing slots with
  | nil => rfl
  | cons r rest ih =>
    rw [List.map_cons, List.mem_cons, not_or] at h
    cases r with
    | position w => exact ih h.2 slots
    | name j w =>
      have hj : i ≠ j := fun hj => h.1 (congrArg some hj)
      rw [nameAll, nameAll, List.set_comm _ _ hj, ih h.2]

theorem freeIn?_nameAll_none (h : freeIn? params slots = none) (rs : List Reading) :
    freeIn? params (nameAll rs slots) = none := by
  induction rs generalizing slots with
  | nil => exact h
  | cons r rest ih =>
    cases r with
    | position w => exact ih h
    | name j w => exact ih (freeIn?_set_none h j w)

theorem freeIn?_nameAll_some (h : freeIn? params slots = some i)
    (hi : some i ∉ rs.map Reading.index?) : freeIn? params (nameAll rs slots) = some i := by
  induction rs generalizing slots with
  | nil => exact h
  | cons r rest ih =>
    rw [List.map_cons, List.mem_cons, not_or] at hi
    cases r with
    | position w => exact ih h hi.2
    | name j w =>
      have hj : j ≠ i := fun hj => hi.1 (congrArg some hj.symm)
      exact ih (freeIn?_set_some h hj w) hi.2

/-- The arguments still to come bind in two phases what is not bound yet. -/
theorem foldl_accept (params : List Parameter) (rs : List Reading) (b : Binding) :
    rs.foldl (Binding.accept params) b =
      let filled := fill params (nameAll rs b.bound) (kept params rs b.bound)
      ⟨filled.bound, b.leftOver ++ filled.leftOver⟩ := by
  induction rs generalizing b with
  | nil => simp [nameAll, kept, fill_nil]
  | cons r rest ih =>
    rw [List.foldl_cons, ih]
    cases r with
    | name i v => rfl
    | position v =>
      rw [Binding.accept, Binding.place, Binding.free?_eq, nameAll, kept]
      cases hf : freeIn? params b.bound with
      | none =>
        have hfull := freeIn?_nameAll_none hf rest
        simp [fill_of_full hfull]
      | some i =>
        simp only [Binding.give]
        split
        · next hi => rw [nameAll_set_of_named hi]
        · next hi =>
          rw [nameAll_set_of_unnamed hi, fill_cons_of_free (freeIn?_nameAll_some hf hi)]

theorem kept_sublist (params : List Parameter) (rs : List Reading) (slots : List (Option Value)) :
    (kept params rs slots).Sublist (rs.filterMap Reading.position?) := by
  induction rs generalizing slots with
  | nil => exact .slnil
  | cons r rest ih =>
    cases r with
    | name i v => exact ih _
    | position v =>
      rw [kept, List.filterMap_cons]
      dsimp only [Reading.position?]
      split
      · exact (ih _).cons_cons v
      · split
        · exact (ih _).cons v
        · exact (ih _).cons_cons v

/-- No parameter is named after an argument was given to it by position. -/
def Unharmed (params : List Parameter) (rs : List Reading) (b : Binding) : Prop :=
  ∀ before v after, rs = before ++ .position v :: after →
    ∀ i, (before.foldl (Binding.accept params) b).free? params = some i →
      some i ∉ after.map Reading.index?

theorem unharmed_cons {r : Reading} : Unharmed params (r :: rs) b ↔
    (∀ v, r = .position v → ∀ i, b.free? params = some i → some i ∉ rs.map Reading.index?) ∧
      Unharmed params rs (b.accept params r) := by
  constructor
  · intro h
    refine ⟨?_, fun before v after he => h (r :: before) v after (by rw [he]; rfl)⟩
    rintro v rfl
    exact h [] v rs rfl
  · rintro ⟨hr, h⟩ before v after he
    cases before with
    | nil =>
      cases he
      exact hr v rfl
    | cons _ before =>
      cases he
      exact h before v after rfl

theorem kept_eq_iff (params : List Parameter) (rs : List Reading) (b : Binding) :
    kept params rs b.bound = rs.filterMap Reading.position? ↔ Unharmed params rs b := by
  induction rs generalizing b with
  | nil =>
    refine ⟨fun _ before v after he => ?_, fun _ => rfl⟩
    simp at he
  | cons r rest ih =>
    rw [unharmed_cons, ← ih]
    cases r with
    | name i v =>
      simp [kept, Reading.position?, Binding.accept, Binding.give, List.filterMap_cons]
    | position v =>
      have hlt := (kept_sublist params rest (b.accept params (.position v)).bound).length_le
      rw [kept, List.filterMap_cons, ← Binding.free?_eq]
      dsimp only [Reading.position?]
      cases hf : b.free? params with
      | none => simp [Binding.accept, Binding.place, hf]
      | some i =>
        rw [Binding.accept, Binding.place, hf] at hlt ⊢
        dsimp only [Binding.give] at hlt ⊢
        split
        · next hi =>
          constructor
          · intro he
            rw [he, List.length_cons] at hlt
            omega
          · rintro ⟨hn, _⟩
            exact absurd hi (hn v rfl i rfl)
        · next hi =>
          have hn : ∀ w, Reading.position v = .position w → ∀ j, some i = some j →
              some j ∉ rest.map Reading.index? := by
            rintro _ _ _ ⟨⟩
            exact hi
          rw [List.cons.injEq, and_iff_right rfl, and_iff_right hn]

/-- What arguments have been bound to, against binding them in two phases. -/
structure BoundFrom (params : List Parameter) (rs : List Reading) (b : Binding) : Prop where
  phases : b = fill params (nameAll rs (unbound params)) (kept params rs (unbound params))
  kept_sublist : (kept params rs (unbound params)).Sublist (rs.filterMap Reading.position?)
  /-- All values given by position count exactly if no parameter is named after it got one. -/
  complete_iff : b = inPhases params rs ↔ Unharmed params rs ⟨unbound params, []⟩

/-- The arguments of a script are bound by name first and by position after that, except for those
that are given by position to a parameter which is named later: they are lost. -/
theorem bind_by_name_then_position (value : String → Value) (params : List Parameter)
    (arguments : List String) :
    ∃ b, bind value params arguments = b.variables params ∧
      BoundFrom params (readings value params arguments) b := by
  refine ⟨_, rfl, ?_⟩
  have hb : Binding.take value params arguments ⟨params.map fun _ => none, []⟩ =
      fill params (nameAll (readings value params arguments) (unbound params))
        (kept params (readings value params arguments) (unbound params)) := by
    rw [Binding.take_eq_foldl, foldl_accept]
    rfl
  refine ⟨hb, kept_sublist .., ?_⟩
  rw [hb, ← kept_eq_iff, inPhases]
  constructor
  · intro he
    have hc := congrArg Binding.count he
    rw [count_fill, count_fill] at hc
    exact (kept_sublist ..).eq_of_length (Nat.add_left_cancel hc)
  · intro he
    rw [he]

/-- The first argument goes to the first parameter, which is named by the second one, and is lost,
although another parameter is free. -/
theorem position_lost :
    let value := (State.initial [] []).argumentValue
    let params := [⟨"$A", false⟩, ⟨"$B", false⟩]
    let arguments := ["1", "-A", "2"]
    bind value params arguments =
      [{ name := "$A", value := .int 2 }, { name := "$B", value := .null },
        { name := "$args", value := .array [], automatic := true }] ∧
    bindInPhases value params arguments =
      [{ name := "$A", value := .int 2 }, { name := "$B", value := .int 1 },
        { name := "$args", value := .array [], automatic := true }] ∧
    bind value params arguments ≠ bindInPhases value params arguments := by
  have h₁ : (State.initial [] []).argumentValue "1" = .int 1 := by cbv
  have h₂ : (State.initial [] []).argumentValue "2" = .int 2 := by cbv
  have hb : ∀ value, bind value [⟨"$A", false⟩, ⟨"$B", false⟩] ["1", "-A", "2"] =
      [{ name := "$A", value := value "2" }, { name := "$B", value := .null },
        { name := "$args", value := .array [], automatic := true }] := by
    intro value
    cbv
  have hp : ∀ value, bindInPhases value [⟨"$A", false⟩, ⟨"$B", false⟩] ["1", "-A", "2"] =
      [{ name := "$A", value := value "2" }, { name := "$B", value := value "1" },
        { name := "$args", value := .array [], automatic := true }] := by
    intro value
    cbv
  dsimp only
  rw [hb, hp, h₁, h₂]
  exact ⟨rfl, rfl, by simp⟩

end Stepwise.Script
