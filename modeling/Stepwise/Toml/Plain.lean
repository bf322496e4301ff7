import Stepwise.Toml.Data
import Stepwise.Toml.Document

namespace Stepwise.Toml
open Reader Text

mutual

/-- What a value says, however it was written. -/
def Node.data : Node → Data
  | .text s => .text s
  | .integer n => .integer n
  | .boolean b => .boolean b
  | .fraction => .fraction
  | .moment => .moment
  | .array items => .array (Node.dataOfAll items)
  | .table _ entries => .table (Entries.data entries)
  | .tables last earlier =>
    .array ((Node.dataOfTables earlier).reverse ++ [.table (Entries.data last)])

def Node.dataOfAll : List Node → List Data
  | [] => []
  | n :: rest => n.data :: Node.dataOfAll rest

def Node.dataOfTables : List (List (String × Node)) → List Data
  | [] => []
  | entries :: rest => .table (Entries.data entries) :: Node.dataOfTables rest

def Entries.data : List (String × Node) → Table
  | [] => []
  | (key, n) :: rest => (key, n.data) :: Entries.data rest

end

/-- Keys that need no quotes. -/
def IsBareKey (key : List Char) : Prop :=
  key ≠ [] ∧ ∀ c ∈ key, isBareCharacter c

instance (key : List Char) : Decidable (IsBareKey key) :=
  decidable_of_iff ((!key.isEmpty && key.all isBareCharacter) = true) (by simp [IsBareKey])

/-- A value that is printed on a line. -/
inductive Setting where
  | text (s : String)
  | number (n : Nat)

namespace Setting

def data : Setting → Data
  | .text s => .text s
  | .number n => .integer n

def ofData? : Data → Option Setting
  | .text s => some (.text s)
  | .integer n => if 0 ≤ n ∧ n < signedBound then some (.number n.toNat) else none
  | _ => none

def print : Setting → List Char
  | .text s => writeText s.toList
  | .number n => Nat.toDigits 10 n

end Setting

/-- A table of settings. -/
structure Group where
  name : String
  settings : List (String × Setting)

namespace Group

def ofPair? : String × Data → Option Group
  | (name, .table entries) => do
    let settings ← entries.mapM fun e => (Setting.ofData? e.2).map (e.1, ·)
    return { name, settings }
  | _ => none

/-- The line that gives a setting its value. -/
def line (key : String) (value : List Char) : List Char :=
  key.toList ++ " = ".toList ++ value ++ ['\n']

def header (name : String) : List Char :=
  '[' :: name.toList ++ [']', '\n']

def print (g : Group) : List Char :=
  header g.name ++ g.settings.flatMap fun s => line s.1 s.2.print

/-- The groups with an empty line between each two. -/
def printAll : List Group → List Char
  | [] => []
  | [g] => g.print
  | g :: gs => g.print ++ '\n' :: printAll gs

/-- All keys are bare, and those of one table are distinct. -/
def Printable (gs : List Group) : Prop :=
  (gs.map Group.name).Nodup ∧
    ∀ g ∈ gs, IsBareKey g.name.toList ∧ (g.settings.map Prod.fst).Nodup ∧
      ∀ s ∈ g.settings, IsBareKey s.1.toList

instance (gs : List Group) : Decidable (Printable gs) :=
  inferInstanceAs (Decidable (_ ∧ _))

end Group

/-- A library that reads documents and prints those of groups of settings. -/
def Library.plain : Library where
  print? t := do
    let gs ← t.mapM Group.ofPair?
    if Group.Printable gs then some (String.ofList (Group.printAll gs)) else none
  read? text := (parse? text).map Entries.data

end Stepwise.Toml
