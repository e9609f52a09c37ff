import BlockPlan.Annealer.Align
import BlockPlan.Annealer.Fill
import BlockPlan.Annealer.Run
import BlockPlan.Sequence.StableSort

/-!
# Several runs

One run for each of some seeds, all on the same design and with the same settings, and the choice of
the best outcome among them.
-/

namespace BlockPlan

variable {α ρ : Type} [Scalar α]

namespace Ensemble

/-- A run from a seed, with dead space filled and hard blocks aligned afterwards if `finish` says
so. -/
def runOne [Transcendental α] [DrawSource ρ α] (source : Int → Except (Fault α) ρ) (d : Design α)
    (s : Settings α) (finish : Bool) (seed : Int) : Except (Fault α) (Outcome α) := do
  let (setup, plan) ← Setup.ofDesign d { s with schedule := { s.schedule with seed := seed } }
  let draws ← source seed
  let edit : Edit α (Annealer α ρ) Unit := do
    let _ ← Annealer.anneal setup
    if finish then
      Annealer.onPlan (Plan.fill setup)
      Annealer.onPlan (Plan.align setup none none)
  match edit.run (Annealer.start plan draws) with
  | .ok _ a => a.outcome setup
  | .error e _ => .error e

/-- The outcomes of the runs from some seeds, in the order of the seeds.  The first run that fails
decides the fault.  `workers` is the number of runs at a time, if it is limited. -/
def runAll [Transcendental α] [DrawSource ρ α] (source : Int → Except (Fault α) ρ) (d : Design α)
    (s : Settings α) (workers : Option Int) (finish : Bool) (seeds : List Int) :
    Except (Fault α) (List (Outcome α)) := do
  s.schedule.validate
  d.validate
  if seeds.isEmpty then pure []
  else
    match workers with
    | some n => if n ≤ 0 then throw .noWorkers
    | none => pure ()
    seeds.mapM (runOne source d s finish)

/-- Whether one outcome is better than another: it fits the outline and the other does not, or both
do or do not and it costs less, or it costs the same and comes first. -/
def better (a b : Outcome α × Nat) : Bool :=
  if a.1.fitsOutline != b.1.fitsOutline then a.1.fitsOutline
  else if !(a.1.finalCost == b.1.finalCost) then decide (a.1.finalCost < b.1.finalCost)
  else decide (a.2 < b.2)

/-- The best outcome and its place. -/
def best (outcomes : List (Outcome α)) : Except (Fault α) (Outcome α × Nat) :=
  match stableSort (fun o => o.1.finalCost == o.1.finalCost) better outcomes.zipIdx with
  | first :: _ => .ok first
  | [] => .error .noResults

end Ensemble

end BlockPlan
