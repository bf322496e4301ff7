import Stepwise.Display
import Stepwise.Value.Arena

namespace Stepwise

namespace Value

mutual

def shown (literals : Literals) : Value → String
  | .null => literals.nullText
  | .nullString => "[NullString]"
  | .bool b => if b then literals.trueText else literals.falseText
  | .int n => toString n.toInt
  | .str s => "\"" ++ s ++ "\""
  | .enum _ name => name
  | .array items => "[Object[]: " ++ toString items.length ++ "]"
  | .hashtable entries => "[Hashtable: " ++ toString entries.length ++ "]"
  | .object _ fields => "@\x7b" ++ "; ".intercalate (shownFields literals fields) ++ "\x7d"
  | .foreign _ display _ => display

def shownFields (literals : Literals) : List (String × Value) → List String
  | [] => []
  | (name, .str s) :: rest => (name ++ "=" ++ s) :: shownFields literals rest
  | (name, value) :: rest => (name ++ "=" ++ shown literals value) :: shownFields literals rest

end

def typeName? : Value → Option String
  | .null => none
  | .nullString => some "NullString"
  | .bool _ => some "bool"
  | .int _ => some "int"
  | .str _ => some "string"
  | .enum type _ => some type
  | .array _ => some "Object[]"
  | .hashtable _ => some "Hashtable"
  | .object type _ => some type
  | .foreign type _ _ => some type

/-- What a collection is called and how many values it holds. -/
def collection? : Value → Option (String × Nat)
  | .array items => some ("Object[]", items.length)
  | .hashtable entries => some ("Hashtable", entries.length)
  | _ => none

/-- A collection shows as many children as it has. -/
theorem shown_of_collection? {v : Value} {kind : String} {count : Nat}
    (h : v.collection? = some (kind, count)) (literals : Literals) :
    v.shown literals = "[" ++ kind ++ ": " ++ toString count ++ "]" ∧
      v.children.length = count := by
  cases v with
  | array items =>
    cases h
    simp [shown, children]
  | hashtable entries =>
    cases h
    simp [shown, children]
  | _ => cases h

end Value

/-- The tree of a value: its text, and its children by name. -/
inductive Outline where
  | node (text : String) (children : List (String × Outline))
deriving Repr, BEq

namespace Value

mutual

def outline (literals : Literals) : Value → Outline
  | .array items => .node ((array items).shown literals) (outlineItems literals 0 items)
  | .hashtable entries =>
    .node ((hashtable entries).shown literals) (outlineEntries literals entries)
  | .object type fields =>
    .node ((object type fields).shown literals) (outlineEntries literals fields)
  | .foreign type display children =>
    .node ((foreign type display children).shown literals) (outlineEntries literals children)
  | v => .node (v.shown literals) []

/-- Items are named by their positions. -/
def outlineItems (literals : Literals) : Nat → List Value → List (String × Outline)
  | _, [] => []
  | position, v :: rest =>
    ("[" ++ toString position ++ "]", v.outline literals) ::
      outlineItems literals (position + 1) rest

def outlineEntries (literals : Literals) : List (String × Value) → List (String × Outline)
  | [] => []
  | (name, v) :: rest => (name, v.outline literals) :: outlineEntries literals rest

end

theorem outlineItems_eq (literals : Literals) (position : Nat) (items : List Value) :
    outlineItems literals position items =
      (items.zipIdx position).map fun (v, i) =>
        ((ChildKey.index i).name, v.outline literals) := by
  induction items generalizing position with
  | nil => rfl
  | cons v rest ih =>
    rw [outlineItems, ih, List.zipIdx_cons, List.map_cons]
    rfl

theorem outlineEntries_eq (literals : Literals) (entries : List (String × Value)) :
    outlineEntries literals entries = entries.map fun (name, v) => (name, v.outline literals) := by
  induction entries with
  | nil => rfl
  | cons entry rest ih => rw [outlineEntries, ih, List.map_cons]

theorem outline_eq (literals : Literals) (v : Value) :
    v.outline literals =
      .node (v.shown literals) (v.children.map fun (k, c) => (k.name, c.outline literals)) := by
  cases v with
  | array items => simp [outline, outlineItems_eq, children, Function.comp_def]
  | hashtable | object | foreign =>
    simp [outline, outlineEntries_eq, children, Function.comp_def, ChildKey.name]
  | _ => simp [outline, children]

end Value
end Stepwise
