/-!
# The numbers a plan is computed with

Every computation of the library is written once, over an arbitrary type of numbers.  Running a
plan uses binary64 floating point; reasoning about a plan uses exact rational arithmetic.  What
both have in common is the class `Scalar`: the four operations, the two comparisons, and an
equality test that need not be reflexive (a floating-point "not a number" differs from itself).

* `Scalar` — the operations themselves, without any law.
* `Scalar.larger`, `Scalar.smaller` — the two choices that keep their first argument unless the
  second one is strictly better; on unordered numbers they keep the first.
* `Transcendental` — the exponential, the logarithm and the square root.  The rationals have no
  canonical instance: a statement about exact arithmetic is made for every choice of the three.
-/

namespace BlockPlan

/-- Numbers with arithmetic and comparisons, and with no laws assumed. -/
class Scalar (α : Type) extends Zero α, One α, NatCast α, Add α, Sub α, Mul α, Div α, Neg α,
    LT α, LE α, BEq α where
  /-- Whether one number lies below another can be tested. -/
  decidableLT : DecidableLT α
  /-- Whether one number is at most another can be tested. -/
  decidableLE : DecidableLE α
  /-- Whether a number lies beyond every finite one. -/
  isInfinite : α → Bool
  /-- The number nearest to an integer, or nothing when the integer exceeds every number. -/
  ofInt? : Int → Option α

attribute [reducible, instance] Scalar.decidableLT Scalar.decidableLE

/-- The functions that arithmetic alone does not give. -/
class Transcendental (α : Type) where
  exp : α → α
  log : α → α
  sqrt : α → α

/-- Exact arithmetic: no number is infinite and every integer is a number. -/
instance : Scalar Rat where
  zero := 0
  one := 1
  decidableLT := inferInstance
  decidableLE := inferInstance
  isInfinite := fun _ => false
  ofInt? := fun i => some i

namespace Scalar

variable {α : Type} [Scalar α]

/-- The larger of two numbers: the second one only if it lies strictly above the first. -/
@[inline] def larger (a b : α) : α := if a < b then b else a

/-- The smaller of two numbers: the second one only if it lies strictly below the first. -/
@[inline] def smaller (a b : α) : α := if b < a then b else a

/-- The largest entry of a list that is known to start with `a`; the earliest of equal ones. -/
def largest (a : α) (rest : List α) : α := rest.foldl larger a

/-- The smallest entry of a list that is known to start with `a`; the earliest of equal ones. -/
def smallest (a : α) (rest : List α) : α := rest.foldl smaller a

/-- The distance of a number from zero. -/
@[inline] def magnitude (a : α) : α := if a < 0 then -a else a

/-- The fraction `p / q`. -/
@[inline] def ratio (p q : Nat) : α := (p : α) / (q : α)

/-- Half of a number. -/
@[inline] def half (a : α) : α := a / ((2 : Nat) : α)

/-- The sum of a list, added from left to right onto zero. -/
def sum (xs : List α) : α := xs.foldl (· + ·) 0

/-- Whether two numbers agree up to the share `tolerance` of the larger one in magnitude. -/
def isClose (tolerance a b : α) : Bool :=
  if a == b then true
  else if isInfinite a || isInfinite b then false
  else
    let gap := magnitude (b - a)
    gap ≤ magnitude (tolerance * b) || gap ≤ magnitude (tolerance * a)

end Scalar

end BlockPlan
