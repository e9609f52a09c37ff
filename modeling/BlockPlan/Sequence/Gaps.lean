import BlockPlan.Scalar.Basic

/-!
# Gaps

The differences of the neighbouring entries of a list: the widths of cells between lines, or the
changes along a sequence of costs.
-/

namespace BlockPlan

variable {α : Type} [Scalar α]

/-- The differences of neighbouring entries. -/
def gaps : List α → List α
  | [] => []
  | [_] => []
  | x :: y :: rest => (y - x) :: gaps (y :: rest)

end BlockPlan
