import Mathlib
import BlockPlan.Draws.Basic

/-!
# Streams of draws

Any two endless lists of answers, of numbers from zero up to one and of integers that are reduced
below the bound that is asked for, are a lawful source of draws.
-/

namespace BlockPlan

/-- Two endless lists of answers. -/
structure Stream where
  units : Nat → { q : Rat // 0 ≤ q ∧ q < 1 }
  indices : Nat → Nat

namespace Stream

/-- A stream that answers with the same number and the same integer all the time. -/
def steady (unit : Rat) (h : 0 ≤ unit ∧ unit < 1) (index : Nat) : Stream :=
  ⟨fun _ => ⟨unit, h⟩, fun _ => index⟩

instance : DrawSource Stream Rat where
  unit := fun s => (s.units 0, { s with units := fun n => s.units (n + 1) })
  below := fun bound s => (s.indices 0 % bound, { s with indices := fun n => s.indices (n + 1) })

instance : LawfulDraws Stream Rat where
  unit_nonneg := fun s => (s.units 0).2.1
  unit_lt_one := fun s => (s.units 0).2.2
  below_lt := fun _ _ h => Nat.mod_lt _ h

end Stream

end BlockPlan
