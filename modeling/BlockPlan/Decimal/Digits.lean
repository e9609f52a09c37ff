import BlockPlan.Scalar.Binary64

/-!
# Decimal digits of a fraction

A positive fraction `num / den` is written as `digits * 10 ^ exponent` in three ways.

* `Decimal.shortest` — the fewest digits that still identify a binary64 number among all others.
* `Decimal.significant` — a given number of digits, rounded.
* `Decimal.places` — a given number of digits behind the point, rounded.

Rounding is exact, and a tie goes to the even neighbour.
-/

namespace BlockPlan.Decimal

open Binary64 (roundHalfEven)

/-- Whether `num / den < 10 ^ e`. -/
def belowPower (num den : Nat) (e : Int) : Bool :=
  num * Nat.pow 10 (-e).toNat < den * Nat.pow 10 e.toNat

/-- The number `e` with `10 ^ (e - 1) ≤ num / den < 10 ^ e`.  The binary logarithms of the two
parts bound it from below and miss it by at most two. -/
def magnitude (num den : Nat) : Int :=
  let low := (((num.log2 : Int) - den.log2) * 30103).fdiv 100000
  if belowPower num den low then low
  else if belowPower num den (low + 1) then low + 1
  else low + 2

/-- Drops trailing zeros of the digits, which then count for more; `fuel` bounds their number. -/
def stripZeros : (fuel : Nat) → Nat → Int → Nat × Int
  | 0, digits, exponent => (digits, exponent)
  | fuel + 1, digits, exponent =>
    if digits ≠ 0 ∧ digits % 10 = 0 then stripZeros fuel (digits / 10) (exponent + 1)
    else (digits, exponent)

/-- The interval of reals that are nearer to one binary64 number than to any other, in units of
`unit / unitDen`: from `low` to `high`, with the number itself at `centre`.  The ends belong to it
when `closed`. -/
structure RoundingInterval where
  low : Nat
  centre : Nat
  high : Nat
  unit : Nat
  unitDen : Nat
  closed : Bool

/-- The rounding interval of `mantissa * 2 ^ exponent`.  Below a power of two the neighbouring
numbers lie twice as dense, so the interval ends half as far away. -/
def RoundingInterval.of (mantissa : Nat) (exponent : Int) : RoundingInterval where
  low := 4 * mantissa - (if mantissa = Nat.pow 2 52 ∧ -1074 < exponent then 1 else 2)
  centre := 4 * mantissa
  high := 4 * mantissa + 2
  unit := Nat.pow 2 (exponent - 2).toNat
  unitDen := Nat.pow 2 (2 - exponent).toNat
  closed := mantissa % 2 = 0

/-- The multiple of `10 ^ k` that lies in the interval and nearest to its centre, if there is
one.  If any multiple lies in the interval, then one of the two around the centre does. -/
def RoundingInterval.onGrid? (i : RoundingInterval) (k : Int) : Option Nat :=
  let a := i.unit * Nat.pow 10 (-k).toNat
  let b := i.unitDen * Nat.pow 10 k.toNat
  let inside (c : Nat) : Bool :=
    if i.closed then i.low * a ≤ c * b && c * b ≤ i.high * a
    else i.low * a < c * b && c * b < i.high * a
  let under := i.centre * a / b
  match inside under, inside (under + 1) with
  | true, true => some (roundHalfEven (i.centre * a) b)
  | true, false => some under
  | false, true => some (under + 1)
  | false, false => none

/-- Tries grids of more and more digits; `fuel` is the number of grids left. -/
def RoundingInterval.firstHit (i : RoundingInterval) : (fuel : Nat) → (k : Int) → Nat × Int
  | 0, k => ((i.onGrid? k).getD 0, k)
  | fuel + 1, k =>
    match i.onGrid? k with
    | some digits => stripZeros 20 digits k
    | none => i.firstHit fuel (k - 1)

/-- The shortest digits `d` and the exponent `k` for which `d * 10 ^ k` reads back as the positive
number `mantissa * 2 ^ exponent`; of several, the nearest.  Seventeen digits always suffice. -/
def shortest (mantissa : Nat) (exponent : Int) : Nat × Int :=
  let i := RoundingInterval.of mantissa exponent
  i.firstHit 17 (magnitude (i.centre * i.unit) i.unitDen - 1)

/-- The fraction rounded to `count` significant digits, and the exponent of its last digit. -/
def significant (num den count : Nat) : Nat × Int :=
  let k := magnitude num den - count
  let digits := roundHalfEven (num * Nat.pow 10 (-k).toNat) (den * Nat.pow 10 k.toNat)
  if digits = Nat.pow 10 count then (digits / 10, k + 1) else (digits, k)

/-- The fraction rounded to `count` digits behind the point, as a multiple of the last place. -/
def places (num den count : Nat) : Nat :=
  roundHalfEven (num * Nat.pow 10 count) den

end BlockPlan.Decimal
