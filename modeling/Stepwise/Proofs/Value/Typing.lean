import Stepwise.Expression.Evaluation

namespace Stepwise
open Text

/-- What comes out has the property, if anything does. -/
def Gives {α : Type} (P : α → Prop) (x : Except ScriptError α) : Prop :=
  ∀ a, x = .ok a → P a

namespace Gives

variable {α β : Type} {P : α → Prop} {Q : β → Prop} {x : Except ScriptError α}

theorem ok {a : α} (h : P a) : Gives P (.ok a) := by
  rintro _ ⟨⟩
  exact h

theorem error (e : ScriptError) : Gives P (.error e) := nofun

theorem any (x : Except ScriptError α) : Gives (fun _ => True) x :=
  fun _ _ => trivial

theorem bind {f : α → Except ScriptError β} (hx : Gives P x) (hf : ∀ a, P a → Gives Q (f a)) :
    Gives Q (x >>= f) := by
  cases x with
  | ok a => exact hf a (hx a rfl)
  | error e => exact error e

theorem map {f : α → β} (hx : Gives P x) (hf : ∀ a, P a → Q (f a)) : Gives Q (x.map f) := by
  cases x with
  | ok a => exact ok (hf a (hx a rfl))
  | error e => exact error e

end Gives

namespace Value

/-- A value of a known enumeration is one of its members. -/
def Proper (enums : Enumerations) : Value → Prop
  | .enum type name => ∀ members, enums.members? type = some members → name ∈ members
  | _ => True

/-- The value is of the type.  The names of the primitive types are theirs, whatever enumerations
there are; every value is of a type that is not known. -/
structure IsOf (enums : Enumerations) (type : String) (v : Value) : Prop where
  int : foldCase type ∈ ["int", "int32", "long", "int64"] → ∃ n, v = .int n
  string : foldCase type = "string" → ∃ text, v = .str text
  bool : foldCase type ∈ ["bool", "boolean"] → ∃ b, v = .bool b
  enum : Primitive.ofName? type = none → ∀ members, enums.members? type = some members →
    ∃ name ∈ members, v = .enum type name

namespace Primitive

variable {enums : Enumerations} {type : String} {v : Value} {p : Primitive}

theorem ofName?_int (h : foldCase type ∈ ["int", "int32", "long", "int64"]) :
    ofName? type = some .int := by
  simp only [List.mem_cons, List.not_mem_nil, or_false] at h
  rcases h with h | h | h | h <;> simp [ofName?, h]

theorem ofName?_string (h : foldCase type = "string") : ofName? type = some .string := by
  simp [ofName?, h]

theorem ofName?_bool (h : foldCase type ∈ ["bool", "boolean"]) : ofName? type = some .bool := by
  simp only [List.mem_cons, List.not_mem_nil, or_false] at h
  rcases h with h | h <;> simp [ofName?, h]

/-- The values of a primitive type. -/
def Holds (v : Value) : Primitive → Prop
  | .int => ∃ n, v = .int n
  | .string => ∃ text, v = .str text
  | .bool => ∃ b, v = .bool b

theorem Holds.proper (h : p.Holds v) : v.Proper enums := by
  cases p with
  | int | string | bool =>
    obtain ⟨_, rfl⟩ := h
    trivial

theorem Holds.isOf (h : p.Holds v) (hp : ofName? type = some p) : v.IsOf enums type := by
  have named {q : Primitive} (hq : ofName? type = some q) : q.Holds v := by
    cases hp.symm.trans hq
    exact h
  exact ⟨fun ht => named (ofName?_int ht), fun ht => named (ofName?_string ht),
    fun ht => named (ofName?_bool ht), fun hn => nomatch hp.symm.trans hn⟩

end Primitive

variable {enums : Enumerations} {type name : String} {members : List String}
  {v w left right : Value}

theorem IsOf.of_enum (hn : Primitive.ofName? type = none)
    (h : ∀ members, enums.members? type = some members → ∃ name ∈ members, v = .enum type name) :
    v.IsOf enums type :=
  ⟨fun ht => absurd (Primitive.ofName?_int ht) (by simp [hn]),
    fun ht => absurd (Primitive.ofName?_string ht) (by simp [hn]),
    fun ht => absurd (Primitive.ofName?_bool ht) (by simp [hn]), fun _ => h⟩

/-- A value stands for a member of the enumeration, if it stands for anything there. -/
theorem mem_of_member? (hv : v.Proper enums) (hm : enums.members? type = some members)
    (h : member? type members v = some name) : name ∈ members := by
  unfold member? at h
  split at h
  · next t own =>
    split at h
    · next ht =>
      subst ht
      cases h
      exact hv members hm
    · exact List.mem_of_find?_eq_some h
  · split at h
    · exact List.mem_of_getElem? h
    · cases h
  · exact List.mem_of_find?_eq_some h

/-- Whatever is converted is a value of the type. -/
theorem coerce_isOf (hv : v.Proper enums) (type : String) :
    Gives (fun w => w.Proper enums ∧ w.IsOf enums type) (v.coerce enums type) := by
  have primitive {p : Primitive} (hp : Primitive.ofName? type = some p) {w : Value}
      (hw : p.Holds w) : w.Proper enums ∧ w.IsOf enums type := ⟨hw.proper, hw.isOf hp⟩
  unfold coerce
  split
  · next hp => exact (Gives.any _).map fun n _ => primitive hp ⟨n, rfl⟩
  · next hp => exact .ok (primitive hp ⟨_, rfl⟩)
  · next hp => exact .ok (primitive hp ⟨_, rfl⟩)
  · next hn =>
    split
    · next hm => exact .ok ⟨hv, .of_enum hn fun members hx => by simp [hm] at hx⟩
    · next members hm =>
      split
      · next name hname =>
        have known (others : List String) (hx : enums.members? type = some others) :
            name ∈ others := by
          cases hm.symm.trans hx
          exact mem_of_member? hv hm hname
        exact .ok ⟨known, .of_enum hn fun others hx => ⟨name, known others hx, rfl⟩⟩
      · exact .error _

theorem arithmetic_holds (op : BinaryOp) (left right : Value) :
    Gives (Primitive.int.Holds) (arithmetic op left right) := by
  refine (Gives.any _).bind fun l _ => (Gives.any _).bind fun r _ => ?_
  split
  · exact .error _
  · split
    · exact .error _
    · split
      · exact .ok ⟨_, rfl⟩
      · exact .error _

/-- Operations give primitive values. -/
theorem apply_holds (op : BinaryOp) (left right : Value) :
    Gives (fun v => ∃ p : Primitive, p.Holds v) (left.apply op right) := by
  have computed (op : BinaryOp) :
      Gives (fun v => ∃ p : Primitive, p.Holds v) (arithmetic op left right) :=
    fun v h => ⟨.int, arithmetic_holds op left right v h⟩
  cases op <;> simp only [apply]
  case add =>
    split
    · exact .ok ⟨.string, _, rfl⟩
    · exact computed _
  case sub | mul | div | mod => exact computed _
  case gt | ge | lt | le => exact (Gives.any _).map fun o _ => ⟨.bool, _, rfl⟩
  case eq | ne | and | or => exact .ok ⟨.bool, _, rfl⟩

end Value

/-- With proper values in its variables an expression has a proper value. -/
theorem Expr.evaluate_proper {env : Environment}
    (h : ∀ name, Gives (fun v => ∀ w, v = some w → w.Proper env.enums) (env.valueOf name))
    (e : Expr) : Gives (Value.Proper env.enums) (e.evaluate env) := by
  induction e with
  | int n | str s => exact .ok trivial
  | var name =>
    rw [evaluate]
    split
    · next value hc =>
      refine .ok ?_
      unfold constant? at hc
      split at hc <;> cases hc <;> trivial
    · refine (h name).map fun v hv => ?_
      cases v with
      | none => trivial
      | some w => exact hv w rfl
  | negate e ih => exact ih.bind fun v _ => (Gives.any _).bind fun n _ => .ok trivial
  | not e ih => exact ih.bind fun v _ => .ok trivial
  | cast type e ih => exact ih.bind fun v hv w hw => (v.coerce_isOf hv type w hw).1
  | binary op l r ihl ihr =>
    refine ihl.bind fun v _ => ?_
    split
    · exact .ok trivial
    · exact .ok trivial
    · refine ihr.bind fun w _ x hx => ?_
      obtain ⟨p, hp⟩ := v.apply_holds _ w x hx
      exact hp.proper

end Stepwise
