import Stepwise.Expression.Basic
import Stepwise.Value.Conversion
import Stepwise.Text.Lowercase

namespace Stepwise
open Text

/-- What an expression can refer to: variables by name, and the enumerations. -/
structure Environment where
  valueOf : String → Except ScriptError (Option Value)
  enums : Enumerations

namespace Value

/-- The exact result of an operation on integers, where there is one. -/
def exactly (op : BinaryOp) (l r : Int) : Option Int :=
  match op with
  | .add => some (l + r)
  | .sub => some (l - r)
  | .mul => some (l * r)
  | .div => if r = 0 then none else some (l.tdiv r)
  | .mod => if r = 0 then none else some (l.tmod r)
  | _ => none

/-- The remainder of the least integer by -1 is refused together with the quotient. -/
def arithmetic (op : BinaryOp) (left right : Value) : Except ScriptError Value := do
  let l ← left.toInt
  let r ← right.toInt
  match exactly op l.toInt r.toInt with
  | none => .error .divisionByZero
  | some n =>
    if op = .mod ∧ l = Int64.minValue ∧ r = -1 then .error .overflow
    else
      match toInt64? n with
      | some n => .ok (.int n)
      | none => .error .overflow

/-- Null equals only itself; an integer or a boolean on the left decides how the right side is
read; all else is compared as text. -/
def equals : Value → Value → Bool
  | .null, .null => true
  | .null, _ => false
  | _, .null => false
  | .int l, r =>
    match r.toInt with
    | .ok n => l == n
    | .error _ => false
  | .bool l, r => l == r.truthy
  | l, r => sameName l.text r.text

/-- A text on the left is compared as text, anything else as an integer. -/
def order (left right : Value) : Except ScriptError Ordering :=
  match left with
  | .str s => .ok (compare (lower s) (lower right.text))
  | _ => do
    let l ← left.toInt
    let r ← right.toInt
    .ok (compare l.toInt r.toInt)

def apply (op : BinaryOp) (left right : Value) : Except ScriptError Value :=
  match op with
  | .add =>
    match left with
    | .str s => .ok (.str (s ++ right.text))
    | _ => arithmetic .add left right
  | .sub | .mul | .div | .mod => arithmetic op left right
  | .eq => .ok (.bool (left.equals right))
  | .ne => .ok (.bool (!left.equals right))
  | .gt => (left.order right).map fun o => .bool o.isGT
  | .ge => (left.order right).map fun o => .bool o.isGE
  | .lt => (left.order right).map fun o => .bool o.isLT
  | .le => (left.order right).map fun o => .bool o.isLE
  | .and => .ok (.bool (left.truthy && right.truthy))
  | .or => .ok (.bool (left.truthy || right.truthy))

end Value

namespace Expr

/-- The value of `$true`, `$false` or `$null`, in any case. -/
def constant? (name : String) : Option Value :=
  match foldCase name with
  | "$true" => some (.bool true)
  | "$false" => some (.bool false)
  | "$null" => some .null
  | _ => none

/-- The right operand of `-and` and `-or` is evaluated only if the left one leaves it open.  The
sign of the least integer cannot be changed: it is its own negative. -/
def evaluate (env : Environment) : Expr → Except ScriptError Value
  | .int n => .ok (.int n)
  | .str s => .ok (.str s)
  | .var name =>
    match constant? name with
    | some value => .ok value
    | none => (env.valueOf name).map (·.getD .null)
  | .negate e => do
    let n ← (← e.evaluate env).toInt
    .ok (.int (-n))
  | .not e => do
    let v ← e.evaluate env
    .ok (.bool (!v.truthy))
  | .cast type e => do
    let v ← e.evaluate env
    v.coerce env.enums type
  | .binary op left right => do
    let l ← left.evaluate env
    match op, l.truthy with
    | .and, false => .ok (.bool false)
    | .or, true => .ok (.bool true)
    | _, _ =>
      let r ← right.evaluate env
      l.apply op r

end Expr
end Stepwise
