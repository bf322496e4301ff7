import Stepwise.Engine.Context

namespace Stepwise

/-- The handle of a scope or of a value with children is a number of 64 bits: the generation of the
halt it was issued in above 20 bits of index. -/
structure Handle where
  number : Int64
deriving Repr, DecidableEq, Inhabited

structure Variable where
  name : String
  value : String
  typeName : Option String
  isExpandable : Bool
  /-- Present when the variable has children. -/
  handle : Option Handle
deriving Repr, DecidableEq

/-- Which variables of a scope are listed. -/
inductive ScopeFilter where
  /-- All but the ones that the engine defines itself. -/
  | auto
  | all
deriving Repr, DecidableEq

inductive ContainerKind where
  | scope (scope : Scope) (filter : ScopeFilter)
  | value (reference : Reference)
deriving Repr, DecidableEq

/-- What a handle stands for: something whose children are listed on request. -/
structure Container where
  name : String
  kind : ContainerKind
  parentScope : Scope
  /-- The children, once they have been listed. -/
  children : Option (List Variable) := none
deriving Repr, DecidableEq

def Container.ofScope (name : String) (scope : Scope) (filter : ScopeFilter) : Container :=
  { name, kind := .scope scope filter, parentScope := scope }

def Container.ofValue (name : String) (reference : Reference) (parentScope : Scope) : Container :=
  { name, kind := .value reference, parentScope }

/-- Indices are smaller than this number. -/
def Handle.indexBound : Nat := 0x100000

/-- Generations are smaller than this number. -/
def Handle.generationBound : Nat := 0x100000000

/-- The container of an index, counted from 1, in a generation. -/
def Handle.of (generation index : Nat) : Handle :=
  ⟨Int64.ofNat (generation * indexBound + index)⟩

/-- The generation of a handle: 32 bits above the index; bits above these do not count. -/
def Handle.generation (h : Handle) : Nat :=
  (h.number.toInt / indexBound % generationBound).toNat

def Handle.index (h : Handle) : Nat :=
  (h.number.toInt % indexBound).toNat

inductive HandleError where
  | stale (handle : Handle)
  | unknown (handle : Handle)
deriving Repr, DecidableEq

/-- Resetting the table starts a new generation, so that the handle of an earlier halt is told apart
from one that was never issued. -/
structure HandleTable where
  generation : Nat := 1
  containers : Array Container := #[]
deriving Repr, DecidableEq

namespace HandleTable

/-- Invalidates all handles; the last generation is never left. -/
def reset (t : HandleTable) : HandleTable :=
  { generation := min (t.generation + 1) (Handle.generationBound - 1), containers := #[] }

/-- Issues a handle for a container, as long as there are indices. -/
def allocate (t : HandleTable) (c : Container) : Option Handle × HandleTable :=
  let index := t.containers.size + 1
  if index < Handle.indexBound then
    (some (.of t.generation index), { t with containers := t.containers.push c })
  else (none, t)

/-- The position of the container that a handle stands for. -/
def check (t : HandleTable) (h : Handle) : Except HandleError Nat :=
  if h.number.toInt ≤ 0 then .error (.unknown h)
  else if h.generation ≠ t.generation then .error (.stale h)
  else if h.index = 0 ∨ t.containers.size < h.index then .error (.unknown h)
  else .ok (h.index - 1)

def resolve (t : HandleTable) (h : Handle) : Except HandleError Container := do
  let i ← t.check h
  match t.containers[i]? with
  | some c => .ok c
  | none => .error (.unknown h)

def setChildren (t : HandleTable) (h : Handle) (children : List Variable) :
    Except HandleError HandleTable := do
  let i ← t.check h
  .ok { t with containers := t.containers.modify i fun c => { c with children := some children } }

/-- Forgets all children, so that they are listed anew. -/
def invalidateChildren (t : HandleTable) : HandleTable :=
  { t with containers := t.containers.map fun c => { c with children := none } }

end HandleTable
end Stepwise
