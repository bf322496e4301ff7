import Stepwise.Script.Program
import Stepwise.Script.Variable

namespace Stepwise.Script
open Text

/-- What the arguments seen so far have been bound to. -/
structure Binding where
  /-- One entry for each parameter. -/
  bound : List (Option Value)
  leftOver : List Value
deriving Repr, BEq

/-- The parameter that an argument names: a dash and the name without its `$`, in any case. -/
def named? (params : List Parameter) (token : String) : Option Nat :=
  match token.toList with
  | '-' :: flag =>
    params.findIdx? fun p =>
      sameName (String.ofList (p.name.toList.dropWhile (· == '$'))) (String.ofList flag)
  | _ => none

namespace Binding

/-- The first parameter that is no switch and has no value. -/
def free? (params : List Parameter) (b : Binding) : Option Nat :=
  (params.zip b.bound).findIdx? fun (p, v) => !p.isSwitch && v.isNone

def give (b : Binding) (index : Nat) (value : Value) : Binding :=
  { b with bound := b.bound.set index (some value) }

def place (params : List Parameter) (b : Binding) (value : Value) : Binding :=
  match b.free? params with
  | some i => b.give i value
  | none => { b with leftOver := b.leftOver ++ [value] }

/-- Binds the arguments one after the other; `value` reads one that is not a name. -/
def take (value : String → Value) (params : List Parameter) : List String → Binding → Binding
  | [], b => b
  | token :: rest, b =>
    match named? params token with
    | none => take value params rest (b.place params (value token))
    | some i =>
      if params[i]?.any (·.isSwitch) then take value params rest (b.give i (.switch true))
      else
        match rest with
        | [] => b.give i .null
        | next :: rest => take value params rest (b.give i (value next))

end Binding

/-- The variables that a script starts with: its parameters, then `$args` with what is left over. -/
def bind (value : String → Value) (params : List Parameter) (arguments : List String) :
    Variables :=
  let b := Binding.take value params arguments ⟨params.map fun _ => none, []⟩
  (params.zip b.bound).map (fun (p, v) =>
    { name := p.name, value := v.getD (if p.isSwitch then .switch false else .null) }) ++
    [{ name := "$args", value := .array b.leftOver, automatic := true }]

end Stepwise.Script
