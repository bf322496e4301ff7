namespace Stepwise.Text

/-- Words of 64 bits are smaller than this number. -/
def wordBound : Nat := 0x10000000000000000

/-- Words with a sign are smaller than this number, and not smaller than its opposite. -/
def signedBound : Int := 0x8000000000000000

/-- The number that a nonempty list of decimal digits denotes. -/
def ofDigits? (cs : List Char) : Option Nat :=
  if cs ≠ [] ∧ cs.all Char.isDigit then some (Nat.ofDigitChars 10 cs 0) else none

/-- A number with an optional sign in front of its digits. -/
def ofSigned? : List Char → Option Int
  | '-' :: cs => (ofDigits? cs).map fun n => -(n : Int)
  | '+' :: cs => (ofDigits? cs).map Int.ofNat
  | cs => (ofDigits? cs).map Int.ofNat

/-- The 64-bit integer next to an exact one, if it is in range. -/
def toInt64? (n : Int) : Option Int64 :=
  if -signedBound ≤ n ∧ n < signedBound then some (Int64.ofInt n) else none

/-- The 64-bit integer that a text denotes. -/
def readInt64? (cs : List Char) : Option Int64 :=
  (ofSigned? cs).bind toInt64?

/-- A number below `wordBound` with an optional plus sign in front. -/
def readUnsigned? (cs : List Char) : Option Nat :=
  (ofDigits? (match cs with | '+' :: ds => ds | ds => ds)).filter (· < wordBound)

end Stepwise.Text
