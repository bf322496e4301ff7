import Stepwise.Engine.Description

namespace Stepwise

/-- How truth values and null are shown. -/
structure Literals where
  trueText : String := "$true"
  falseText : String := "$false"
  nullText : String := "$null"
deriving Repr, DecidableEq

structure Display where
  text : String
  expandable : Bool
deriving Repr, DecidableEq

namespace Description

mutual

/-- Strings are quoted, collections show their size, and records their fields. -/
def displayText (literals : Literals) : Description → String
  | .null => literals.nullText
  | .sentinel tag => "[" ++ tag ++ "]"
  | .bool b => if b then literals.trueText else literals.falseText
  | .int n => toString n.toInt
  | .float x => x.text
  | .string s => "\"" ++ s ++ "\""
  | .enum _ name => name
  | .sequence tag length _ => "[" ++ tag ++ ": " ++ toString length ++ "]"
  | .mapping tag length _ => "[" ++ tag ++ ": " ++ toString length ++ "]"
  | .record _ fields _ => "@\x7b" ++ "; ".intercalate (fieldTexts literals fields) ++ "\x7d"
  | .object _ display _ _ => display

/-- A string is not quoted among the fields of a record. -/
def fieldTexts (literals : Literals) : List (String × Description) → List String
  | [] => []
  | (name, .string s) :: rest => (name ++ "=" ++ s) :: fieldTexts literals rest
  | (name, value) :: rest =>
    (name ++ "=" ++ displayText literals value) :: fieldTexts literals rest

end

def expandable : Description → Bool
  | .sequence _ length _ => 0 < length
  | .mapping _ length _ => 0 < length
  | .record _ fields _ => !fields.isEmpty
  | .object _ _ childCount _ => 0 < childCount
  | _ => false

def display (literals : Literals) (d : Description) : Display :=
  ⟨d.displayText literals, d.expandable⟩

end Description

def ChildKey.name : ChildKey → String
  | .index position => "[" ++ toString position ++ "]"
  | .key text => text
  | .field name => name

end Stepwise
