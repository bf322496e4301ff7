import Stepwise.Binary64

namespace Stepwise

/-- An engine's own name for a value with children. -/
structure Reference where
  index : Nat
deriving Repr, DecidableEq, Inhabited

inductive Description where
  | null
  /-- A null of a type of its own, shown apart from the plain one. -/
  | sentinel (tag : String)
  | bool (value : Bool)
  | int (value : Int64)
  | float (value : Binary64)
  | string (value : String)
  | enum (type name : String)
  | sequence (tag : String) (length : Nat) (reference : Reference)
  | mapping (tag : String) (length : Nat) (reference : Reference)
  | record (type : String) (fields : List (String × Description)) (reference : Reference)
  /-- Anything else, with the engine's own text. -/
  | object (type display : String) (childCount : Nat) (reference : Reference)
deriving Repr, BEq, Inhabited

namespace Description

/-- The name of the value's type; a plain null has none. -/
def typeName? : Description → Option String
  | null => none
  | sentinel tag => some tag
  | bool _ => some "bool"
  | int _ => some "int"
  | float _ => some "double"
  | string _ => some "string"
  | enum type _ => some type
  | sequence tag _ _ => some tag
  | mapping tag _ _ => some tag
  | record type _ _ => some type
  | object type _ _ _ => some type

def reference? : Description → Option Reference
  | sequence _ _ r => some r
  | mapping _ _ r => some r
  | record _ _ r => some r
  | object _ _ _ r => some r
  | _ => none

end Description

inductive ChildKey where
  | index (position : Nat)
  | key (text : String)
  | field (name : String)
deriving Repr, DecidableEq

end Stepwise
