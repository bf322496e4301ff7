namespace Stepwise.Text

/-- The code points from `first` to `last`, both included. -/
structure Interval where
  first : Nat
  last : Nat
deriving Repr, DecidableEq

def covers (table : List Interval) (c : Char) : Bool :=
  table.any fun i => i.first ≤ c.toNat && c.toNat ≤ i.last

end Stepwise.Text
