import BlockPlan.Scalar.Basic

/-!
# Staircases

A staircase maps integral keys to values and answers, for a key, the largest value entered under a
smaller key.  Only the steps are kept: entries whose keys do not decrease and whose values increase.
A value that an earlier step already reaches is not entered, and a new step removes the later ones
that it reaches.
-/

namespace BlockPlan

/-- The steps of a staircase, in the order of their keys. -/
structure Staircase (α : Type) where
  steps : List (Int × α) := []
  deriving DecidableEq, Repr

namespace Staircase

variable {α : Type} [Scalar α]

/-- The steps with smaller keys. -/
def before (s : Staircase α) (key : Int) : List (Int × α) :=
  s.steps.takeWhile fun step => decide (step.1 < key)

/-- The steps with keys that are not smaller. -/
def after (s : Staircase α) (key : Int) : List (Int × α) :=
  s.steps.dropWhile fun step => decide (step.1 < key)

/-- The value of the last step with a smaller key, or zero. -/
def query (s : Staircase α) (key : Int) : α :=
  match (s.before key).getLast? with
  | some (_, value) => value
  | none => 0

/-- Enters a value, unless the last step with a smaller key reaches it. -/
def insert (s : Staircase α) (key : Int) (value : α) : Staircase α :=
  let grown : Staircase α :=
    ⟨s.before key ++ (key, value) :: (s.after key).dropWhile fun step => decide (step.2 ≤ value)⟩
  match (s.before key).getLast? with
  | some (_, reached) => if value ≤ reached then s else grown
  | none => grown

end Staircase

end BlockPlan
