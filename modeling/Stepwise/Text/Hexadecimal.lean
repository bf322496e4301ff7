namespace Stepwise.Text

/-- The value of a digit, in either case. -/
def hexValue? (c : Char) : Option Nat :=
  if '0' ≤ c ∧ c ≤ '9' then some (c.toNat - '0'.toNat)
  else if 'a' ≤ c ∧ c ≤ 'f' then some (c.toNat - 'a'.toNat + 10)
  else if 'A' ≤ c ∧ c ≤ 'F' then some (c.toNat - 'A'.toNat + 10)
  else none

/-- The capital digit of a value below 16. -/
def hexDigit (n : Nat) : Char :=
  if n < 10 then Char.ofNat ('0'.toNat + n) else Char.ofNat ('A'.toNat + (n - 10))

/-- The number that digits of a base denote, the first digit the highest. -/
def ofBase? (base : Nat) (cs : List Char) : Option Nat :=
  cs.foldl (fun n c => do return base * (← n) + (← (hexValue? c).filter (· < base))) (some 0)

end Stepwise.Text
