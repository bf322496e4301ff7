import Stepwise.Value.Basic
import Stepwise.Value.Error
import Stepwise.Engine.Description

namespace Stepwise

/-- The values that were told about by reference since the last halt, in the order of the
references. -/
abbrev Arena := List Value

/-- Keeps a value and gives its reference. -/
def Arena.keep (arena : Arena) (value : Value) : Reference × Arena :=
  (⟨arena.length⟩, arena ++ [value])

def Arena.get (arena : Arena) (reference : Reference) : Except ScriptError Value :=
  match arena[reference.index]? with
  | some value => .ok value
  | none => .error .staleReference

mutual

/-- What is told about a value.  A record is kept before its fields are described; the children of
the other containers are described when they are asked for. -/
def Value.describe (arena : Arena) : Value → Description × Arena
  | .null => (.null, arena)
  | .nullString => (.sentinel "NullString", arena)
  | .bool b => (.bool b, arena)
  | .int n => (.int n, arena)
  | .str s => (.string s, arena)
  | .enum type name => (.enum type name, arena)
  | .array items =>
    let (r, arena) := arena.keep (.array items)
    (.sequence "Object[]" items.length r, arena)
  | .hashtable entries =>
    let (r, arena) := arena.keep (.hashtable entries)
    (.mapping "Hashtable" entries.length r, arena)
  | .object type fields =>
    let (r, arena) := arena.keep (.object type fields)
    let (told, arena) := Value.describeFields arena fields
    (.record type told r, arena)
  | .foreign type display children =>
    let (r, arena) := arena.keep (.foreign type display children)
    (.object type display children.length r, arena)

def Value.describeFields (arena : Arena) :
    List (String × Value) → List (String × Description) × Arena
  | [] => ([], arena)
  | (name, value) :: rest =>
    let (told, arena) := Value.describe arena value
    let (others, arena) := Value.describeFields arena rest
    ((name, told) :: others, arena)

end

/-- The value that a description stands for; a fraction is cut off. -/
def Description.resolve (arena : Arena) : Description → Except ScriptError Value
  | .null => .ok .null
  | .sentinel _ => .ok .nullString
  | .bool b => .ok (.bool b)
  | .int n => .ok (.int n)
  | .float x => .ok (.int x.truncate)
  | .string s => .ok (.str s)
  | .enum type name => .ok (.enum type name)
  | .sequence _ _ r => arena.get r
  | .mapping _ _ r => arena.get r
  | .record _ _ r => arena.get r
  | .object _ _ _ r => arena.get r

def Value.children : Value → List (ChildKey × Value)
  | .array items => items.zipIdx.map fun (v, i) => (.index i, v)
  | .hashtable entries => entries.map fun (k, v) => (.key k, v)
  | .object _ fields => fields.map fun (k, v) => (.field k, v)
  | .foreign _ _ children => children.map fun (k, v) => (.field k, v)
  | _ => []

end Stepwise
