import BlockPlan.Search.Annealing
import BlockPlan.Sequence.Slot

/-!
# Two small search spaces

A walker on the integers, who steps up or down at random and wants to come near a target
(`Walk.towards`), and a walker on a cycle of given costs, who steps ahead without a draw
(`Walk.around`).  Both remember their last step only, which is all that a search asks of a space.
-/

namespace BlockPlan

/-- A walker, with the place in front of the last step and the number of steps. -/
structure Walker where
  place : Int
  former : Int
  steps : Nat
  deriving DecidableEq, Repr

/-- A walker who has not made a step yet. -/
def Walker.start (place : Int) : Walker := ⟨place, place, 0⟩

namespace Walk

variable {α ρ : Type}

/-- Takes the last step back. -/
def back : Edit α Walker Unit := modify fun w => { w with place := w.former }

/-- Puts the walker at a place. -/
def moveTo (place : Int) : Edit α Walker Unit := modify fun w => { w with place := place }

variable [Scalar α]

/-- Steps up or down with equal chances; the cost is the square of the distance from the target. -/
def towards [DrawSource ρ α] (target : Int) : SearchSpace α Walker ρ Int where
  perturb := do
    let draw ← Edit.drawUnit
    let step : Int := if draw < Scalar.ratio 1 2 then 1 else -1
    Edit.onState (modify fun w => { w with place := w.place + step, former := w.place })
  restore := back
  cost := fun w => ofInteger ((w.place - target) * (w.place - target))
  keep := Walker.place
  load := moveTo

omit [Scalar α] in
/-- Steps to the entry of the cycle that has the number of the step; the cost is that entry.  On a
cycle without entries the step is counted, but leads nowhere. -/
def around (costs : List α) : SearchSpace α Walker ρ Int where
  perturb := Edit.onState do
    modify fun w => { w with former := w.place, steps := w.steps + 1 }
    if costs.isEmpty then throw .emptyCycle
    modify fun w => { w with place := (w.steps % costs.length : Nat) }
  restore := back
  cost := fun w => Slot.entry costs w.place
  keep := Walker.place
  load := moveTo

end Walk

end BlockPlan
