import Stepwise.Value.Basic
import Stepwise.Value.Error
import Stepwise.Text.Ascii
import Stepwise.Text.Blank
import Stepwise.Text.Integer

namespace Stepwise
open Text

/-- The members of each enumeration type; of two entries for one type the later one counts. -/
abbrev Enumerations := List (String × List String)

def Enumerations.members? (enums : Enumerations) (type : String) : Option (List String) :=
  enums.reverse.lookup type

namespace Value

def toInt : Value → Except ScriptError Int64
  | .null => .ok 0
  | .bool b => .ok (if b then 1 else 0)
  | .int n => .ok n
  | .str s =>
    match readInt64? (trimBlanks s.toList) with
    | some n => .ok n
    | none => .error (.notAnInteger s)
  | other => .error (.notAnInteger other.text)

/-- The types that a declared variable is converted to without looking at enumerations. -/
inductive Primitive where
  | int
  | string
  | bool
deriving Repr, DecidableEq

def Primitive.ofName? (type : String) : Option Primitive :=
  match foldCase type with
  | "int" | "int32" | "long" | "int64" => some .int
  | "string" => some .string
  | "bool" | "boolean" => some .bool
  | _ => none

/-- The member of an enumeration that a value stands for: itself, one by its position, or one by
its name in any case. -/
def member? (type : String) (members : List String) : Value → Option String
  | .enum t name =>
    if t = type then some name else members.find? (sameName · name)
  | .int n => if 0 ≤ n.toInt then members[n.toInt.toNat]? else none
  | other => members.find? (sameName · other.text)

/-- The value converted to a type; a type that is not known leaves it alone. -/
def coerce (enums : Enumerations) (type : String) (value : Value) : Except ScriptError Value :=
  match Primitive.ofName? type with
  | some .int => value.toInt.map .int
  | some .string => .ok (.str value.text)
  | some .bool => .ok (.bool value.truthy)
  | none =>
    match enums.members? type with
    | none => .ok value
    | some members =>
      match member? type members value with
      | some name => .ok (.enum type name)
      | none => .error (.notAMember value.text type members)

end Value
end Stepwise
