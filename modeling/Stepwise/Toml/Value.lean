import Stepwise.Toml.Quoted
import Stepwise.Toml.Scalar

namespace Stepwise.Toml
open Reader

/-- Arrays and braces nest less deep than this, and keys have fewer parts. -/
def depthBound : Nat := 80

/-- The characters of a key without quotes. -/
def isBareCharacter (c : Char) : Bool :=
  c.isAlphanum || c == '_' || c == '-'

def bareKey : Reader (List Char) := do
  let cs ← span isBareCharacter
  if cs = [] then failure else return cs

/-- The parts of a key, with dots between them. -/
def keyParts : Reader (List String) := do
  let part : Reader String := do
    blanks
    let cs ← readLine <|> bareKey
    blanks
    return String.ofList cs
  let parts ← separated part (exactly ['.'])
  if parts.length < depthBound then return parts else failure

structure Pair where
  path : List String
  key : String
  value : Node

/-- The last part of a key and the parts in front of it. -/
def splitLast : List String → Option (List String × String)
  | [] => none
  | [key] => some ([], key)
  | part :: parts => (splitLast parts).map fun (path, key) => (part :: path, key)

def pair (value : Reader Node) : Reader Pair := do
  let (path, key) ← (splitLast (← keyParts) : Reader (List String × String))
  exactly ['=']
  blanks
  return { path, key, value := ← value }

/-- Values between brackets; the last one may have a comma behind it. -/
def array (value : Reader Node) : Reader Node := do
  let item : Reader Node := do
    gap
    let v ← value
    gap
    return v
  exactly ['[']
  let items ← attempt (separated item (exactly [',']))
  if items.isSome then
    let _ ← attempt (exactly [','])
  gap
  exactly [']']
  return .array (items.getD [])

/-- Adds pairs one by one. -/
def Entries.insertAll : List Pair → Entries → Option Entries
  | [], entries => some entries
  | p :: rest, entries => do
    insertAll rest (← entries.insert p.path p.key p.value .closed)

/-- Pairs between braces, on one line. -/
def inlineTable (value : Reader Node) : Reader Node := do
  let item : Reader Pair := do
    let p ← pair value
    blanks
    return p
  exactly ['\x7b']
  let pairs ← attempt (separated item (exactly [',']))
  blanks
  exactly ['\x7d']
  let entries ← (Entries.insertAll (pairs.getD []) [] : Reader Entries)
  return .table .closed entries

def readSimple : Reader Node :=
  (do return .text (String.ofList (← readText))) <|> readScalar

/-- A value with arrays and braces nested at most so deep. -/
def valueWithin : Nat → Reader Node
  | 0 => readSimple
  | depth + 1 =>
    readSimple <|> array (valueWithin depth) <|> inlineTable (valueWithin depth)

def readValue : Reader Node :=
  valueWithin (depthBound - 1)

end Stepwise.Toml
