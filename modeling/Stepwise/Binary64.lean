import Stepwise.Text.Integer

namespace Stepwise

/-- A double precision number by its bits. -/
structure Binary64 where
  bits : UInt64
deriving Repr, DecidableEq, Inhabited

namespace Binary64

/-- A finite number is `significand * 2 ^ exponent` with a sign. -/
inductive Meaning where
  | nan
  | infinite (negative : Bool)
  | finite (negative : Bool) (significand : Nat) (exponent : Int)
deriving Repr, DecidableEq

/-- The bit of a significand that is not stored, but in the smallest numbers. -/
def hiddenBit : Nat := 0x10000000000000

def meaning (x : Binary64) : Meaning :=
  let n := x.bits.toNat
  let negative := n / 0x8000000000000000 == 1
  let scale : Nat := n / hiddenBit % 2048
  let fraction := n % hiddenBit
  if scale = 2047 then if fraction = 0 then .infinite negative else .nan
  else if scale = 0 then .finite negative fraction (-1074)
  else .finite negative (fraction + hiddenBit) ((scale : Int) - 1075)

/-- The decimal `digits * 10 ^ exponent`. -/
structure Decimal where
  digits : Nat
  exponent : Int
deriving Repr, DecidableEq

/-- A positive number and the ends of the interval that rounds to it, over one denominator. -/
structure Target where
  low : Nat
  value : Nat
  high : Nat
  denominator : Nat
  closed : Bool
deriving Repr, DecidableEq

/-- Below a power of two the next double is only half as far away. -/
def Target.of (significand : Nat) (exponent : Int) : Target :=
  let below := if significand = hiddenBit ∧ exponent ≠ -1074 then 1 else 2
  let up := Nat.pow 2 (exponent - 2).toNat
  { low := (4 * significand - below) * up
    value := 4 * significand * up
    high := (4 * significand + 2) * up
    denominator := Nat.pow 2 (2 - exponent).toNat
    closed := significand % 2 == 0 }

/-- The multiple of `10 ^ exponent` that is written for the number, if one of its two neighbours
among these multiples rounds to it. -/
def Target.onGrid (t : Target) (exponent : Int) : Option Decimal :=
  let unit := t.denominator * Nat.pow 10 exponent.toNat
  let scale := Nat.pow 10 (-exponent).toNat
  let inside (n : Nat) : Bool :=
    if t.closed then t.low * scale ≤ n * unit && n * unit ≤ t.high * scale
    else t.low * scale < n * unit && n * unit < t.high * scale
  let n := t.value * scale / unit
  let nearerAbove := t.value * scale - n * unit ≥ (n + 1) * unit - t.value * scale
  if inside (n + 1) && (nearerAbove || !inside n) then some ⟨n + 1, exponent⟩
  else if inside n then some ⟨n, exponent⟩
  else none

/-- The grids from coarse to fine that can hold the shortest decimal of a double. -/
def Target.shortest (t : Target) : Decimal :=
  ((List.range 660).findSome? fun (i : Nat) => t.onGrid (310 - (i : Int))).getD ⟨0, 0⟩

/-- Positional notation, with a point only in front of a fraction. -/
def Decimal.text (d : Decimal) : List Char :=
  let digits := Nat.toDigits 10 d.digits
  let places := (-d.exponent).toNat
  if places = 0 then digits ++ List.replicate d.exponent.toNat '0'
  else
    let padded := List.replicate (places + 1 - digits.length) '0' ++ digits
    padded.take (padded.length - places) ++ '.' :: padded.drop (padded.length - places)

/-- The text has the fewest digits that no other double is nearer to; of two such decimals the
nearer one is written, and the larger one when both are equally near. -/
def text (x : Binary64) : String :=
  match x.meaning with
  | .nan => "NaN"
  | .infinite negative => if negative then "-inf" else "inf"
  | .finite negative m e =>
    let magnitude := if m = 0 then ['0'] else (Target.of m e).shortest.text
    String.ofList ((if negative then ['-'] else []) ++ magnitude)

/-- The number without its fraction, held within the bounds of 64 bits; what is no number is
zero. -/
def truncate (x : Binary64) : Int64 :=
  match x.meaning with
  | .nan => 0
  | .infinite negative => if negative then Int64.minValue else Int64.maxValue
  | .finite negative m e =>
    let magnitude : Nat := m * Nat.pow 2 e.toNat / Nat.pow 2 (-e).toNat
    let whole : Int := if negative then -magnitude else magnitude
    if whole < -Text.signedBound then Int64.minValue
    else if whole < Text.signedBound then Int64.ofInt whole
    else Int64.maxValue

end Binary64
end Stepwise
