import BlockPlan.Annealer.Plan

/-!
# A table of the terms
-/

namespace BlockPlan.Plan

open Decimal (fixedText generalText padLeft padRight)

/-- Weight, raw value, norm and cost of every term, and the cost in all. -/
def table (setup : Setup Float) (p : Plan Float) : Except (Fault Float) String := do
  let weights := setup.objective.weights
  let head := padRight 16 "term" ++ padLeft 10 "weight" ++ padLeft 14 "raw" ++ padLeft 14 "norm"
    ++ padLeft 12 "cost"
  let rows ← Term.all.mapM fun t => do
    let cost ← p.tally.costOfTerm weights t
    pure (padRight 16 t.name ++ padLeft 10 (generalText 3 (weights.get t))
      ++ padLeft 14 (generalText 6 (p.tally.raw.get t))
      ++ padLeft 14 (generalText 6 (p.tally.norm.get t)) ++ padLeft 12 (fixedText 6 cost))
  let cost ← p.cost setup
  pure ("\n".intercalate
    (head :: rows ++ [padRight 16 "total" ++ padLeft 38 "" ++ padLeft 12 (fixedText 6 cost)]))

end BlockPlan.Plan
