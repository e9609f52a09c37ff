import BlockPlan.Cost.Term
import BlockPlan.Decimal.Text

/-!
# The journal of a run

A run leaves a list of events behind.  Some of them are reported as lines of text: to a listener for
details, or to a listener for the course of the run only.
-/

namespace BlockPlan

variable {α : Type}

/-- What happens in a run. -/
inductive Event (α : Type) where
  /-- The norm and the weight of a term after calibration. -/
  | normSet (term : Term) (norm weight : α)
  /-- Calibration has ended with an initial temperature and the cost of the starting layout. -/
  | calibrated (blocks : Nat) (width height temperature cost : α)
  /-- A search starts. -/
  | started (levels trials : Int) (temperature cost : α)
  /-- A level has ended; `reported` tells whether it is one of those that are reported. -/
  | level (index : Nat) (temperature cost best acceptance : α) (reported : Bool)
  /-- A search has ended. -/
  | finished (best : α) (iterations accepted : Nat)
  deriving Repr

/-- How much a listener wants to know. -/
inductive Detail where
  | everything
  | course
  | nothing
  deriving DecidableEq, Repr

namespace Event

open Decimal (fixedText generalText padRight)

/-- Whether a listener is told of an event. -/
def isHeard (detail : Detail) : Event α → Bool
  | .normSet .. => detail == .everything
  | .level _ _ _ _ _ reported => detail != .nothing && reported
  | _ => detail != .nothing

/-- The line about an event. -/
def line : Event Float → String
  | .normSet term norm weight =>
    "norm " ++ padRight 15 term.name ++ " " ++ generalText 6 norm ++ " (weight "
      ++ generalText 6 weight ++ ")"
  | .calibrated blocks width height temperature cost =>
    s!"Initialized {blocks} macros in " ++ fixedText 1 width ++ " × " ++ fixedText 1 height
      ++ " outline: T_init=" ++ generalText 6 temperature ++ " cost=" ++ fixedText 6 cost
  | .started levels trials temperature cost =>
    s!"Fast SA start: steps={levels} perturb/step={trials} T_init=" ++ generalText 6 temperature
      ++ " cost=" ++ fixedText 6 cost
  | .level index temperature cost best acceptance _ =>
    "step=" ++ toString (index + 1) ++ " T=" ++ generalText 4 temperature ++ " cost="
      ++ fixedText 6 cost ++ " best=" ++ fixedText 6 best ++ " acc=" ++ fixedText 2 acceptance
  | .finished best iterations accepted =>
    "Fast SA done: best=" ++ fixedText 6 best ++ s!" iterations={iterations} accepted={accepted}"

end Event

/-- The lines that a listener is told, in order. -/
def report (detail : Detail) (events : List (Event Float)) : List String :=
  (events.filter (Event.isHeard detail)).map Event.line

/-- The level, the cost and the temperature of every level that has ended. -/
def progress (events : List (Event α)) : List (Nat × α × α) :=
  events.filterMap fun
    | .level index temperature cost _ _ _ => some (index, cost, temperature)
    | _ => none

end BlockPlan
