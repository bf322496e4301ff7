import Stepwise.Text.Hexadecimal
import Stepwise.Text.Integer
import Stepwise.Toml.Reader
import Stepwise.Toml.Table

namespace Stepwise.Toml
open Text

/-- The digits of a number of which each underscore stands between two digits. -/
def ungroup? (isDigit : Char → Bool) : List Char → Option (List Char)
  | [] => none
  | [c] => if isDigit c then some [c] else none
  | c :: '_' :: cs => if isDigit c then (ungroup? isDigit cs).map (c :: ·) else none
  | c :: cs => if isDigit c then (ungroup? isDigit cs).map (c :: ·) else none

/-- The digits of a decimal number, which starts with a zero only if it has no other digit. -/
def decimalDigits? (cs : List Char) : Option (List Char) :=
  match cs with
  | '0' :: _ :: _ => none
  | _ => ungroup? Char.isDigit cs

/-- The sign of a number, negative or not, and what follows it. -/
def splitSign : List Char → Bool × List Char
  | '-' :: cs => (true, cs)
  | '+' :: cs => (false, cs)
  | cs => (false, cs)

def decimal? (cs : List Char) : Option Int := do
  let (negative, cs) := splitSign cs
  let n ← ofBase? 10 (← decimalDigits? cs)
  return if negative then -n else n

/-- A number with a letter for its base in front. -/
def based? (cs : List Char) : Option Int :=
  let read (base : Nat) (cs : List Char) : Option Int := do
    let digits ← ungroup? (fun c => (hexValue? c).any (· < base)) cs
    return (← ofBase? base digits : Nat)
  match cs with
  | '0' :: 'x' :: cs => read 16 cs
  | '0' :: 'o' :: cs => read 8 cs
  | '0' :: 'b' :: cs => read 2 cs
  | _ => none

def integer? (cs : List Char) : Option Int :=
  ((based? cs).or (decimal? cs)).filter fun n => -signedBound ≤ n ∧ n < signedBound

/-- Numbers from here on round to infinity: they are as close to `2 ^ 1024` as to the greatest
binary number of 64 bits below it. -/
def fractionBound : Nat := Nat.pow 2 1024 - Nat.pow 2 970

/-- Whether `digits * 10 ^ exponent` is too large.  Numbers with a point at the 310th place or
behind it are, and those with a point before the 309th are not. -/
def isTooLarge (digits : List Char) (exponent : Int) : Bool :=
  let digits := digits.dropWhile (· == '0')
  let place := digits.length + exponent
  let n := Nat.ofDigitChars 10 digits 0
  if digits.isEmpty || place < 309 then false
  else if 309 < place then true
  else fractionBound * Nat.pow 10 (-exponent).toNat ≤ n * Nat.pow 10 exponent.toNat

/-- The exponent behind the letter that introduces it. -/
def exponent? (cs : List Char) : Option Int := do
  let (negative, cs) := splitSign cs
  let n := Nat.ofDigitChars 10 (← ungroup? Char.isDigit cs) 0
  return if negative then -n else n

/-- A number with a fraction, an exponent or both.  One that is too large is refused, unless it is
negative. -/
def isFraction (cs : List Char) : Bool :=
  let (negative, cs) := splitSign cs
  let isPlain (c : Char) := c.isDigit || c == '_'
  let whole := cs.takeWhile isPlain
  let (places, cs) :=
    match cs.dropWhile isPlain with
    | '.' :: cs => (some (cs.takeWhile isPlain), cs.dropWhile isPlain)
    | cs => (none, cs)
  let power :=
    match cs with
    | 'e' :: cs | 'E' :: cs => some cs
    | _ => none
  let fits (digits : List Char) (exponent : Int) := negative || !isTooLarge digits exponent
  match decimalDigits? whole, places.map (ungroup? Char.isDigit), power.map exponent?, cs with
  | some whole, some (some places), none, [] => fits (whole ++ places) (-(places.length : Int))
  | some whole, some (some places), some (some e), _ => fits (whole ++ places) (e - places.length)
  | some whole, none, some (some e), _ => fits whole e
  | _, _, _, _ => false

def isSpecial (cs : List Char) : Bool :=
  let cs := (splitSign cs).2
  cs == "inf".toList || cs == "nan".toList

def pair? (a b : Char) : Option Nat :=
  if a.isDigit ∧ b.isDigit then some (Nat.ofDigitChars 10 [a, b] 0) else none

/-- A number of two digits that is at most so large. -/
def isUpTo (bound : Nat) (a b : Char) : Bool :=
  (pair? a b).any (· ≤ bound)

def isLeapYear (year : Nat) : Bool :=
  year % 4 == 0 && (year % 100 != 0 || year % 400 == 0)

def daysOfMonth (year month : Nat) : Nat :=
  if month = 2 then if isLeapYear year then 29 else 28
  else if month ∈ [4, 6, 9, 11] then 30
  else 31

def isDate : List Char → Bool
  | [y, z, u, v, '-', a, b, '-', c, d] =>
    match pair? y z, pair? u v, pair? a b, pair? c d with
    | some century, some year, some month, some day =>
      1 ≤ month && month ≤ 12 && 1 ≤ day && day ≤ daysOfMonth (100 * century + year) month
    | _, _, _, _ => false
  | _ => false

/-- Part of a second, to any number of places. -/
def isPartOfSecond : List Char → Bool
  | [] => true
  | '.' :: cs => !cs.isEmpty && cs.all Char.isDigit
  | _ => false

/-- A time of day; the last minute may have a leap second. -/
def isTime : List Char → Bool
  | a :: b :: ':' :: c :: d :: ':' :: e :: f :: cs =>
    isUpTo 23 a b && isUpTo 59 c d && isUpTo 60 e f && isPartOfSecond cs
  | _ => false

/-- A time zone as its distance from the zero meridian's. -/
def isOffset : List Char → Bool
  | ['Z'] | ['z'] => true
  | [s, a, b, ':', c, d] => (s == '+' || s == '-') && isUpTo 23 a b && isUpTo 59 c d
  | _ => false

/-- A time of day, perhaps with a time zone. -/
def isZonedTime (cs : List Char) : Bool :=
  let isZone (c : Char) := c == 'Z' || c == 'z' || c == '+' || c == '-'
  let zone := cs.dropWhile (!isZone ·)
  isTime (cs.takeWhile (!isZone ·)) && (zone.isEmpty || isOffset zone)

/-- A date, a time, or a date and a time with a letter between them. -/
def isMoment (cs : List Char) : Bool :=
  let time :=
    match cs.drop 10 with
    | 'T' :: time | 't' :: time => isZonedTime time
    | rest => rest.isEmpty
  isTime cs || (isDate (cs.take 10) && time)

/-- The characters of these values. -/
def isScalarCharacter (c : Char) : Bool :=
  c.isAlphanum || c == '+' || c == '-' || c == '.' || c == ':' || c == '_'

/-- What a word stands for as a value. -/
def scalar? (cs : List Char) : Option Node :=
  if cs = "true".toList then some (.boolean true)
  else if cs = "false".toList then some (.boolean false)
  else if isMoment cs then some .moment
  else if isFraction cs || isSpecial cs then some .fraction
  else (integer? cs).map .integer

/-- The rest behind the time that belongs to a date, if one follows behind a blank. -/
def afterTime (cs : List Char) : List Char :=
  match cs with
  | ' ' :: time =>
    if isZonedTime (time.takeWhile isScalarCharacter) then time.dropWhile isScalarCharacter else cs
  | _ => cs

def readScalar : Reader Node := fun cs => do
  let word := cs.takeWhile isScalarCharacter
  let rest := cs.dropWhile isScalarCharacter
  let node ← scalar? word
  return (node, if isDate word then afterTime rest else rest)

end Stepwise.Toml
