import Stepwise.Toml.Data

namespace Stepwise
open Toml

/-- How values of a kind are kept in a document. -/
structure Codec (β : Type) where
  write : β → Data
  read? : Data → Option β

namespace Codec

def text : Codec String where
  write := .text
  read?
    | .text s => some s
    | _ => none

/-- Numbers that are not negative and have 64 bits. -/
def number : Codec Nat where
  write n := .integer n
  read?
    | .integer n => if 0 ≤ n ∧ n < Text.wordBound then some n.toNat else none
    | _ => none

end Codec

/-- A field of a record. -/
structure Field (α : Type) where
  name : String
  Kind : Type
  codec : Codec Kind
  get : α → Kind
  set : Kind → α → α

namespace Field

variable {α : Type}

/-- Fields are named in kebab case in documents. -/
def key (f : Field α) : String :=
  String.ofList (f.name.toList.map fun c => if c = '_' then '-' else c)

def entry (f : Field α) (a : α) : String × Data :=
  (f.key, f.codec.write (f.get a))

/-- The record with the field taken from the entries; if they leave it out it stays as it is. -/
def take? (f : Field α) (entries : Table) (a : α) : Option α :=
  match entries.lookup f.key with
  | none => some a
  | some d => (f.codec.read? d).map (f.set · a)

end Field

namespace Record

variable {α : Type}

def toTable (fields : List (Field α)) (a : α) : Table :=
  fields.map (·.entry a)

/-- The record with all its fields taken from the entries.  What they hold beyond the fields does
not matter. -/
def ofTable? (fields : List (Field α)) (entries : Table) (a : α) : Option α :=
  fields.foldlM (fun a f => f.take? entries a) a

/-- The entries of a record by their keys.  An array gives them in order, and a date or a time gives
none. -/
def entries? (keys : List String) : Data → Option Table
  | .table entries => some entries
  | .array items => some (keys.zip items)
  | .moment => some []
  | _ => none

end Record

/-- A record whose fields have defaults, as a table inside a table. -/
def Codec.record {α : Type} (fields : List (Field α)) (default : α) : Codec α where
  write a := .table (Record.toTable fields a)
  read? d := do
    let entries ← Record.entries? (fields.map (·.key)) d
    Record.ofTable? fields entries default

end Stepwise
