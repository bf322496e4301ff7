import Stepwise.Proofs.Script.Telling
import Stepwise.Proofs.Script.Working

namespace Stepwise

/-- What is told about the fields of a record; nothing else is told of by its parts. -/
def Description.fields : Description → List (String × Description)
  | .record _ fields _ => fields
  | _ => []

def Value.fields : Value → List (String × Value)
  | .object _ fields => fields
  | _ => []

namespace Description

mutual

/-- The description stands for the value, and so do those of its fields, however deep, for the
fields of the value. -/
inductive Restores (arena : Arena) : Description → Value → Prop
  | intro {d : Description} {v : Value} (resolve : d.resolve arena = .ok v)
    (fields : RestoreFields arena d.fields v.fields) : Restores arena d v

/-- There is a description for each field, under its name. -/
inductive RestoreFields (arena : Arena) :
    List (String × Description) → List (String × Value) → Prop
  | nil : RestoreFields arena [] []
  | cons {d : Description} {v : Value} {told : List (String × Description)}
    {fields : List (String × Value)} (name : String) (head : Restores arena d v)
    (tail : RestoreFields arena told fields) :
    RestoreFields arena ((name, d) :: told) ((name, v) :: fields)

end

variable {arena more : Arena} {d : Description} {v : Value}

mutual

theorem Restores.mono {d : Description} {v : Value} (hp : arena <+: more) :
    Restores arena d v → Restores more d v
  | .intro hr hf => .intro (resolve_mono hp hr) (hf.mono hp)

theorem RestoreFields.mono {told : List (String × Description)}
    {fields : List (String × Value)} (hp : arena <+: more) :
    RestoreFields arena told fields → RestoreFields more told fields
  | .nil => .nil
  | .cons name head tail => .cons name (head.mono hp) (tail.mono hp)

end

theorem Restores.get {r : Reference} (h : Restores arena d v) (hr : d.reference? = some r) :
    arena.get r = .ok v := by
  obtain ⟨hv, _⟩ := h
  cases d with
  | sequence | mapping | record | object =>
    cases hr
    exact hv
  | _ => cases hr

end Description

namespace Value

mutual

theorem describe_restores (arena : Arena) (v : Value) :
    Description.Restores (v.describe arena).2 (v.describe arena).1 v := by
  refine .intro (v.describe_tells arena).resolve ?_
  cases v with
  | object type fields =>
    simp only [describe]
    exact describeFields_restore _ fields
  | _ =>
    simp only [describe]
    exact .nil

/-- What is told of a field still stands for it when the fields after it have been described. -/
theorem describeFields_restore (arena : Arena) (fields : List (String × Value)) :
    Description.RestoreFields (describeFields arena fields).2 (describeFields arena fields).1
      fields := by
  cases fields with
  | nil =>
    rw [describeFields]
    exact .nil
  | cons field rest =>
    obtain ⟨name, v⟩ := field
    rw [describeFields]
    exact .cons name ((describe_restores arena v).mono (prefix_describeFields _ rest))
      (describeFields_restore _ rest)

end

end Value

/-- A child is told under its key, and what is told stands for it. -/
structure EngineChild.Restores (arena : Arena) (told : EngineChild) (child : ChildKey × Value) :
    Prop where
  key : told.key = child.1
  value : told.value.Restores arena child.2

theorem EngineChild.Restores.mono {arena more : Arena} {told : EngineChild}
    {child : ChildKey × Value} (hp : arena <+: more) (h : Restores arena told child) :
    Restores more told child :=
  { h with value := h.value.mono hp }

namespace Script
open EngineM

variable {s t : State} {α : Type}

namespace State

theorem ToldMore.prefix_arena (h : s.ToldMore t) : s.arena <+: t.arena := by
  obtain ⟨more, rfl⟩ := h
  exact List.prefix_append s.arena more

theorem describeChildren_restore (s : State) (children : List (ChildKey × Value)) :
    List.Forall₂ (EngineChild.Restores (s.describeChildren children).2.arena)
      (s.describeChildren children).1 children := by
  induction children generalizing s with
  | nil => exact .nil
  | cons child rest ih =>
    have hc : EngineChild.Restores (s.describe child.2).2.arena
        ⟨child.1, (s.describe child.2).1⟩ child :=
      ⟨rfl, child.2.describe_restores s.arena⟩
    have hr := (toldMore_told.describeChildren (s.describe child.2).2 rest).prefix_arena
    exact .cons (hc.mono hr) (ih _)

/-- Nothing that the context offers takes a value out of the arena. -/
theorem arena_worked : Worked fun s t => s.arena <+: t.arena where
  refl _ := List.prefix_rfl
  trans h h' := h.trans h'
  describe s v := v.prefix_describe s.arena
  register _ _ _ := List.prefix_rfl
  store h := by
    obtain ⟨_, _, _, _, _, _, rfl⟩ := exists_of_store h
    exact (arena_withScope ..).symm ▸ List.prefix_rfl

end State

/-- Describing a value only appends to the arena, and whatever is done through the context after
it in the same halt, the description resolves to the value, and so does what it tells of each
field of a record.  The children of a described value can be listed; to list them only appends to
the arena too, and their descriptions resolve to them in the same way. -/
theorem described_resolves (s : State) (v : Value) :
    s.ToldMore (s.describe v).2 ∧
      (∀ {α : Type} {work : EngineM State α}, Working work →
        (s.describe v).1.Restores (work.run (s.describe v).2).2.arena v) ∧
      ∀ (d : Description) (r : Reference), d.Restores s.arena v → d.reference? = some r →
        ∃ told t, Returns (context.children r) s (.ok told) t ∧ s.ToldMore t ∧
          ∀ {α : Type} {work : EngineM State α}, Working work →
            List.Forall₂ (EngineChild.Restores (work.run t).2.arena) told v.children := by
  refine ⟨s.toldMore_describe v, fun hw => ?_, fun d r hd hr => ?_⟩
  · exact (v.describe_restores s.arena).mono (hw.leaves State.arena_worked _)
  · have hget : s.arena.get r = .ok v := hd.get hr
    refine ⟨(s.describeChildren v.children).1, _, answer_ok ?_,
      State.toldMore_told.describeChildren s v.children, fun hw => ?_⟩
    · rw [hget]
      rfl
    · exact (s.describeChildren_restore v.children).imp fun _ _ h =>
        h.mono (hw.leaves State.arena_worked _)

/-- A record in a record, with a list inside, resolves after a variable was assigned and the list
was told of once more; and so do the items of the list. -/
theorem described_resolves_nested :
    let list : Value := .array [.int 7, .hashtable [("k", .null)]]
    let inner : Value := .object "Inner" [("Items", list)]
    let v : Value := .object "Outer" [("Inner", inner), ("On", .bool true)]
    let s : State := (State.describe {} v).2
    let work := context.assign .global "$x" (.int 5) >>= fun _ => context.children ⟨2⟩
    s.arena = [v, inner, list] ∧
      (State.describe {} v).1.Restores (work.run s).2.arena v ∧
      ∃ told t, Returns (context.children ⟨2⟩) s (.ok told) t ∧
        List.Forall₂ (EngineChild.Restores (work.run t).2.arena) told list.children := by
  intro list inner v s work
  have harena : s.arena = [v, inner, list] := by rfl
  have hwork : Working work :=
    .bind (.assign .global "$x" (.int 5)) fun _ => .observing (.children ⟨2⟩)
  have hlist : (Description.sequence "Object[]" 2 ⟨2⟩).Restores s.arena list := .intro rfl .nil
  obtain ⟨told, t, hr, _, ht⟩ := (described_resolves s list).2.2 _ ⟨2⟩ hlist rfl
  exact ⟨harena, (described_resolves {} v).2.1 hwork, told, t, hr, ht hwork⟩

end Script
end Stepwise
