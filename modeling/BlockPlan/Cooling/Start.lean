import BlockPlan.Cooling.Schedule
import BlockPlan.Sequence.Gaps
import BlockPlan.Sequence.PairwiseSum

/-!
# Where cooling starts

The initial temperature is chosen from the costs along a walk of random moves, such that a move of
average size uphill is accepted with a given probability.
-/

namespace BlockPlan

variable {α : Type} [Scalar α]

/-- The mean of the changes along a list of costs, whatever their direction. -/
def averageChange (costs : List α) : α :=
  let changes := (gaps costs).map Scalar.magnitude
  pairwiseSum changes / ((changes.length : Nat) : α)

/-- The largest probability that is used; a move could not be uphill and certain to be accepted. -/
def acceptanceLimit : α := 1 - Scalar.ratio 1 1000000000

/-- The temperature at which a move of average size uphill is accepted with probability
`acceptance`; the floor when the costs do not change. -/
def startTemperature [Transcendental α] (costs : List α) (acceptance floor : α) :
    Except (Fault α) α :=
  if costs.length < 2 then .ok floor
  else
    let average := averageChange costs
    if average ≤ 0 then .ok floor
    else do
      let log ← logarithm (Scalar.smaller acceptance acceptanceLimit)
      pure (Scalar.larger (← divide (-average) log) floor)

end BlockPlan
