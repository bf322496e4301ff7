import Stepwise.Value.Basic
import Stepwise.Text.Ascii

namespace Stepwise.Script
open Text

structure Variable where
  name : String
  value : Value
  /-- Values are converted to this type when they are stored. -/
  declaredType : Option String := none
  automatic : Bool := false
deriving Repr, BEq, Inhabited

abbrev Variables := List Variable

namespace Variables

def find? (vars : Variables) (name : String) : Option Variable :=
  List.find? (fun v => sameName v.name name) vars

/-- The first variable of the name takes the value and the type; without one a new variable is
added at the end. -/
def put (vars : Variables) (name : String) (value : Value) (declaredType : Option String) :
    Variables :=
  match vars with
  | [] => [{ name, value, declaredType }]
  | v :: rest =>
    if sameName v.name name then { v with value, declaredType } :: rest
    else v :: Variables.put rest name value declaredType

end Variables
end Stepwise.Script
