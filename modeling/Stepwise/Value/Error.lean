import Stepwise.Engine.Error
import Stepwise.Expression.Basic

namespace Stepwise

/-- What can go wrong when an expression is parsed, evaluated, converted or looked up. -/
inductive ScriptError where
  | parse (error : ParseError)
  | divisionByZero
  | overflow
  | notAnInteger (text : String)
  | notAMember (text type : String) (members : List String)
  | noFrame (index : Nat)
  | staleReference
  /-- The number of a frame has no successor among the machine words, and there is no such frame. -/
  | frameOverflow
deriving Repr, DecidableEq

namespace ScriptError

/-- The diagnostic for an error.  There is none for a frame that is read though it does not exist:
that takes the engine's thread down. -/
def report? : ScriptError → Option EngineError
  | .parse e => some ⟨.parse, e.message⟩
  | .divisionByZero => some ⟨.runtime, "Attempted to divide by zero."⟩
  | .overflow => some ⟨.runtime, "Arithmetic operation resulted in an overflow."⟩
  | .notAnInteger text =>
    some ⟨.conversion, "Cannot convert value \"" ++ text ++ "\" to type \"System.Int32\"."⟩
  | .notAMember text type members =>
    some ⟨.conversion, "Cannot convert value \"" ++ text ++ "\" to type \"" ++ type ++
      "\". Specify one of the following enumerator names and try again: " ++
      ", ".intercalate members⟩
  | .noFrame index => some ⟨.notFound, "No stack frame at index " ++ toString index ++ "."⟩
  | .staleReference => some ⟨.notFound, "Value reference is no longer valid."⟩
  | .frameOverflow => none

end ScriptError
end Stepwise
