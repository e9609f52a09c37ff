import BlockPlan.Scalar.Basic

/-!
# Binary64 numbers as exact fractions

A finite binary64 number is `± mantissa * 2 ^ exponent` for natural `mantissa` and integral
`exponent`.  `Binary64.value` reads this off the bits, and `Binary64.ofRatio` goes the other way:
it rounds an arbitrary fraction to the nearest binary64 number, a tie to the even mantissa.
Through these two, texts are read and written in exact integer arithmetic.

The module also makes `Float` the type of numbers that plans are run with.
-/

namespace BlockPlan

namespace Binary64

/-- What a binary64 number stands for. -/
inductive Value where
  | nan
  | infinite (negative : Bool)
  | finite (negative : Bool) (mantissa : Nat) (exponent : Int)
  deriving Repr, DecidableEq

/-- Reads sign, exponent and mantissa off the bits. -/
def value (x : Float) : Value :=
  let bits : Nat := x.toBits.toNat
  let negative := bits / Nat.pow 2 63 == 1
  let biased : Nat := bits / Nat.pow 2 52 % Nat.pow 2 11
  let fraction : Nat := bits % Nat.pow 2 52
  if biased == 2047 then
    if fraction == 0 then .infinite negative else .nan
  else if biased == 0 then .finite negative fraction (-1074)
  else .finite negative (Nat.pow 2 52 + fraction) ((biased : Int) - 1075)

/-- The integer nearest to `num / den`; of two equally near ones the even one. -/
def roundHalfEven (num den : Nat) : Nat :=
  let q := num / den
  let r := num % den
  if 2 * r < den then q
  else if den < 2 * r then q + 1
  else if q % 2 = 0 then q else q + 1

/-- `num * 2 ^ (-e)` over `den`, as a fraction of natural numbers. -/
def scaled (num den : Nat) (e : Int) : Nat × Nat :=
  (num * Nat.pow 2 (-e).toNat, den * Nat.pow 2 e.toNat)

/-- The exponent for which the mantissa of `num / den` has 53 bits, or the least exponent there
is when the fraction is too small for that. -/
def exponentOf (num den : Nat) : Int :=
  let e : Int := (num.log2 : Int) - den.log2 - 52
  let (n, d) := scaled num den e
  let e := if n / d < Nat.pow 2 52 then e - 1 else e
  if e < -1074 then -1074 else e

/-- The binary64 number nearest to `± num / den` for a positive `den`; a tie goes to the even
mantissa, and a magnitude that rounds beyond the largest finite number becomes infinite.

Adding the mantissa to the shifted exponent is right for all magnitudes: the leading bit of a
53-bit mantissa carries into the exponent, and a mantissa rounded up to `2 ^ 53` carries twice. -/
def ofRatio (negative : Bool) (num den : Nat) : Float :=
  let magnitude :=
    if num = 0 then 0
    else
      let e := exponentOf num den
      let (n, d) := scaled num den e
      min ((e + 1074).toNat * Nat.pow 2 52 + roundHalfEven n d) (2047 * Nat.pow 2 52)
  Float.ofBits (UInt64.ofNat ((if negative then Nat.pow 2 63 else 0) + magnitude))

end Binary64

/-- The binary64 numbers, on which plans are run. -/
instance : Scalar Float where
  zero := 0
  one := 1
  natCast := Float.ofNat
  decidableLT := inferInstance
  decidableLE := inferInstance
  isInfinite := Float.isInf
  ofInt? := fun i =>
    let x := Binary64.ofRatio (decide (i < 0)) i.natAbs 1
    if x.isInf then none else some x

instance : Transcendental Float where
  exp := Float.exp
  log := Float.log
  sqrt := Float.sqrt

end BlockPlan
