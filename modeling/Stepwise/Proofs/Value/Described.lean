import Stepwise.Proofs.Value.Outline

namespace Stepwise

namespace Arena

variable {arena more : Arena} {r : Reference} {v : Value}

theorem get_eq_ok_iff : arena.get r = .ok v ↔ arena[r.index]? = some v := by
  unfold get
  split
  · next h => simp [h]
  · next h => simp [h]

/-- What a reference stands for is not changed by what is kept later. -/
theorem get_of_prefix (h : arena <+: more) (hr : arena.get r = .ok v) : more.get r = .ok v := by
  obtain ⟨rest, rfl⟩ := h
  rw [get_eq_ok_iff] at hr ⊢
  obtain ⟨hlt, _⟩ := List.getElem?_eq_some_iff.mp hr
  rw [List.getElem?_append_left hlt, hr]

theorem prefix_keep (arena : Arena) (v : Value) : arena <+: (arena.keep v).2 :=
  List.prefix_append arena [v]

theorem get_keep (arena : Arena) (v : Value) : (arena.keep v).2.get (arena.keep v).1 = .ok v :=
  get_eq_ok_iff.mpr (by simp [keep])

end Arena

/-- The description tells of the value, which its reference stands for in the arena. -/
structure Description.Tells (d : Description) (arena : Arena) (v : Value) : Prop where
  text : ∀ literals, d.displayText literals = v.shown literals
  typeName : d.typeName? = v.typeName?
  expandable : d.expandable = !v.children.isEmpty
  reference : ∀ r, d.reference? = some r → arena.get r = .ok v
  refers : d.expandable = true → d.reference?.isSome = true
  resolve : d.resolve arena = .ok v

theorem Description.resolve_mono {d : Description} {arena more : Arena} {v : Value}
    (hp : arena <+: more) (h : d.resolve arena = .ok v) : d.resolve more = .ok v := by
  cases d with
  | sequence | mapping | record | object => exact Arena.get_of_prefix hp h
  | _ => exact h

theorem Description.Tells.of_prefix {d : Description} {arena more : Arena} {v : Value}
    (h : d.Tells arena v) (hp : arena <+: more) : d.Tells more v :=
  { h with
    reference := fun r hr => Arena.get_of_prefix hp (h.reference r hr)
    resolve := resolve_mono hp h.resolve }

namespace Value

mutual

theorem prefix_describe (arena : Arena) (v : Value) : arena <+: (v.describe arena).2 := by
  cases v with
  | object type fields =>
    rw [describe]
    exact (arena.prefix_keep _).trans (prefix_describeFields _ fields)
  | array | hashtable | foreign =>
    rw [describe]
    exact arena.prefix_keep _
  | _ => simp [describe]

theorem prefix_describeFields (arena : Arena) (fields : List (String × Value)) :
    arena <+: (describeFields arena fields).2 := by
  cases fields with
  | nil => simp [describeFields]
  | cons field rest =>
    obtain ⟨name, v⟩ := field
    rw [describeFields]
    exact (prefix_describe arena v).trans (prefix_describeFields _ rest)

end

theorem isEmpty_describeFields (arena : Arena) (fields : List (String × Value)) :
    (describeFields arena fields).1.isEmpty = fields.isEmpty := by
  cases fields with
  | nil => rw [describeFields]; rfl
  | cons field rest => rw [describeFields]; rfl

mutual

theorem displayText_describe (literals : Literals) (arena : Arena) (v : Value) :
    (v.describe arena).1.displayText literals = v.shown literals := by
  cases v with
  | object type fields =>
    have hf := fieldTexts_describeFields literals (arena.keep (.object type fields)).2 fields
    simp only [describe, Description.displayText, shown, hf]
  | _ => simp [describe, Description.displayText, shown]

theorem fieldTexts_describeFields (literals : Literals) (arena : Arena)
    (fields : List (String × Value)) :
    Description.fieldTexts literals (describeFields arena fields).1 =
      shownFields literals fields := by
  cases fields with
  | nil => simp [describeFields, Description.fieldTexts, shownFields]
  | cons field rest =>
    obtain ⟨name, v⟩ := field
    have hv := displayText_describe literals arena v
    have hr := fieldTexts_describeFields literals (v.describe arena).2 rest
    cases v with
    | str s =>
      simp only [describe] at hr
      simp only [describeFields, describe, Description.fieldTexts, shownFields, hr]
    | _ =>
      simp only [describe] at hv hr
      simp only [describeFields, describe, Description.fieldTexts, shownFields, hv, hr]

end

theorem expandable_describe (arena : Arena) (v : Value) :
    (v.describe arena).1.expandable = !v.children.isEmpty := by
  cases v with
  | array items | hashtable items | foreign _ _ items =>
    cases items <;> simp [describe, Description.expandable, children]
  | object type fields => simp [describe, Description.expandable, children, isEmpty_describeFields]
  | _ => simp [describe, Description.expandable, children]

/-- A value is kept before anything that belongs to it. -/
theorem get_describe (arena : Arena) (v : Value) {r : Reference}
    (h : (v.describe arena).1.reference? = some r) : (v.describe arena).2.get r = .ok v := by
  have hk := arena.get_keep v
  cases v with
  | object type fields =>
    simp only [describe, Description.reference?] at h ⊢
    cases h
    exact Arena.get_of_prefix (prefix_describeFields _ fields) hk
  | array | hashtable | foreign =>
    simp only [describe, Description.reference?] at h ⊢
    cases h
    exact hk
  | _ => simp [describe, Description.reference?] at h

theorem describe_tells (arena : Arena) (v : Value) :
    (v.describe arena).1.Tells (v.describe arena).2 v where
  text literals := displayText_describe literals arena v
  typeName := by cases v <;> simp [describe, Description.typeName?, typeName?]
  expandable := expandable_describe arena v
  reference _ hr := get_describe arena v hr
  refers he := by
    cases v <;> simp [describe, Description.reference?, Description.expandable] at he ⊢
  resolve := by
    have hg := @get_describe arena v
    cases v with
    | object | array | hashtable | foreign =>
      simp only [describe, Description.reference?, Description.resolve] at hg ⊢
      exact hg rfl
    | _ => simp [describe, Description.resolve]

end Value
end Stepwise
