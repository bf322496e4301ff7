namespace Stepwise

inductive Value where
  | null
  | nullString
  | bool (value : Bool)
  | int (value : Int64)
  | str (text : String)
  | enum (type name : String)
  | array (items : List Value)
  | hashtable (entries : List (String × Value))
  | object (type : String) (fields : List (String × Value))
  /-- A value shown by a text of its own, with named children. -/
  | foreign (type display : String) (children : List (String × Value))
deriving Repr, BEq, Inhabited

namespace Value

/-- A switch parameter, given or not. -/
def switch (given : Bool) : Value :=
  .foreign "SwitchParameter" (if given then "True" else "False") [("IsPresent", .bool given)]

def truthy : Value → Bool
  | .null | .nullString => false
  | .bool b => b
  | .int n => n != 0
  | .str s => s != ""
  | .array items => !items.isEmpty
  | .enum _ _ | .hashtable _ | .object _ _ | .foreign _ _ _ => true

def text : Value → String
  | .null | .nullString => ""
  | .bool b => if b then "True" else "False"
  | .int n => toString n.toInt
  | .str s => s
  | .enum _ name => name
  | .array _ => "System.Object[]"
  | .hashtable _ => "System.Collections.Hashtable"
  | .object type _ => type
  | .foreign _ display _ => display

end Value
end Stepwise
