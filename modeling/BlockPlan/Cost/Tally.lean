import BlockPlan.Cost.Objective

/-!
# Weighing the terms

A `Tally` holds the raw value of every term and the norm it is divided by.  The cost is the weighted
sum of the quotients.

* `Tally.evaluate` — measures the terms anew, all of them or only those with a weight.
* `Tally.total` — the cost of the raw values at hand.
* `Tally.setNorms` — takes the mean of sampled raw values as the norm of each term.
-/

namespace BlockPlan

variable {α : Type}

/-- Raw values and norms of the terms. -/
structure Tally (α : Type) where
  raw : PerTerm α
  norm : PerTerm α
  deriving DecidableEq, Repr

namespace Tally

variable [Scalar α]

/-- Before anything is measured, raw values are zero and norms one. -/
def initial : Tally α := ⟨.const 0, .const 1⟩

/-- Measures a term of a layout. -/
def measureTerm (o : Objective α) (l : Layout α) (t : Term) : Edit α (Tally α) Unit := do
  let v ← Edit.ofExcept (o.measure l t)
  modify fun tally => { tally with raw := tally.raw.set t v }

/-- Measures, in their order, all terms or only those with a weight.  A term that cannot be measured
ends the evaluation; the terms in front of it have their new values. -/
def evaluate (o : Objective α) (everything : Bool) (l : Layout α) : Edit α (Tally α) Unit :=
  (Term.all.filter fun t => everything || o.enabled t).forM (measureTerm o l)

/-- The raw value of a term over its norm. -/
def normalized (tally : Tally α) (t : Term) : Except (Fault α) α :=
  divide (tally.raw.get t) (tally.norm.get t)

/-- The contribution of a term to the cost. -/
def costOfTerm (tally : Tally α) (weights : Weights α) (t : Term) : Except (Fault α) α := do
  pure (weights.get t * (← tally.normalized t))

/-- The cost: the sum of the contributions of all terms. -/
def total (tally : Tally α) (weights : Weights α) : Except (Fault α) α := do
  pure (Scalar.sum (← Term.all.mapM (tally.costOfTerm weights)))

/-- The cost that a list of raw values would have with the norms at hand; the terms that the list
does not reach do not count. -/
def costOf (tally : Tally α) (weights : Weights α) (values : List α) : Except (Fault α) α := do
  let terms ← (List.zip Term.all values).mapM fun (t, v) =>
    divide (weights.get t * v) (tally.norm.get t)
  pure (Scalar.sum terms)

omit [Scalar α] in
/-- Replaces the raw values of the first terms by those of a list. -/
def load (values : List α) (tally : Tally α) : Tally α :=
  { tally with raw := tally.raw.overwrite values }

/-- The mean of the values that some samples have for a term. -/
def mean (samples : List (PerTerm α)) (t : Term) : α :=
  Scalar.sum (samples.map (·.get t)) / ((samples.length : Nat) : α)

/-- Takes the means of some samples as norms; a term whose mean is not above zero has the norm one,
and without samples the norms stay as they are. -/
def setNorms (samples : List (PerTerm α)) (tally : Tally α) : Tally α :=
  if samples.isEmpty then tally
  else
    { tally with
      norm := .ofFn fun t => let m := mean samples t; if 0 < m then m else 1 }

end Tally

end BlockPlan
