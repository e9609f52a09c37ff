import BlockPlan.Proofs.Cooling.Schedule
import BlockPlan.Proofs.Cooling.Start
import BlockPlan.Proofs.Sequence.PairwiseSum

/-!
# Temperatures in another unit

Costs and temperatures have the same unit.  When the costs of a walk and the floor of the
temperatures are multiplied by a factor above zero, so are the temperature where cooling starts and
the temperatures of all levels.

* `Scalar.larger_mul`, `Scalar.smaller_mul`, `divide_mul` — factors move out of choices and
  quotients.
* **`startTemperature_mul`** — the initial temperature.
* **`temperature_mul`** — the temperature of a level.
-/

namespace BlockPlan

variable {f : Rat} (hf : 0 < f)

section Factors

include hf

lemma Scalar.larger_mul (a b : Rat) : larger (a * f) (b * f) = larger a b * f := by
  rw [larger_eq_max, larger_eq_max, max_mul_of_nonneg _ _ hf.le]

lemma Scalar.smaller_mul (a b : Rat) : smaller (a * f) (b * f) = smaller a b * f := by
  rw [smaller_eq_min, smaller_eq_min, min_mul_of_nonneg _ _ hf.le]

lemma Scalar.magnitude_mul (a : Rat) : magnitude (a * f) = magnitude a * f := by
  have hneg : a * f < 0 ↔ a < 0 := by rw [← not_le, ← not_le, mul_nonneg_iff_of_pos_right hf]
  simp only [magnitude, hneg]
  split_ifs
  · ring
  · rfl

end Factors

lemma divide_mul (a b f : Rat) : divide (a * f) b = (divide a b).map (· * f) := by
  rw [divide, divide]
  split_ifs
  · rfl
  · exact congrArg Except.ok (mul_div_right_comm a f b)

/-- Both sides of a quotient may be multiplied by a factor. -/
lemma divide_mul_mul {f : Rat} (hf : f ≠ 0) (a b : Rat) : divide (a * f) (b * f) = divide a b := by
  have hzero : (b * f == 0) = (b == 0) := by
    simp [hf]
  rw [divide, divide, hzero, mul_div_mul_right a b hf]

/-! ## Where cooling starts -/

lemma gaps_mul (f : Rat) (costs : List Rat) :
    gaps (costs.map (· * f)) = (gaps costs).map (· * f) := by
  induction costs with
  | nil => rfl
  | cons a rest ih =>
      cases rest with
      | nil => rfl
      | cons b rest =>
          rw [List.map_cons, List.map_cons, gaps, gaps, List.map_cons, sub_mul, ← ih, List.map_cons]

include hf in
lemma averageChange_mul (costs : List Rat) :
    averageChange (costs.map (· * f)) = averageChange costs * f := by
  have hchanges : (gaps (costs.map (· * f))).map Scalar.magnitude
      = ((gaps costs).map Scalar.magnitude).map (· * f) := by
    rw [gaps_mul, List.map_map, List.map_map]
    exact List.map_congr_left fun a _ => Scalar.magnitude_mul hf a
  simp only [averageChange, hchanges, pairwiseSum_eq, List.length_map]
  rw [List.sum_map_mul_right, List.map_id', mul_div_right_comm]

include hf in
/-- **The initial temperature has the unit of the costs.** -/
theorem startTemperature_mul [Transcendental Rat] (costs : List Rat) (acceptance floor : Rat) :
    startTemperature (costs.map (· * f)) acceptance (floor * f)
      = (startTemperature costs acceptance floor).map (· * f) := by
  have hsign : averageChange costs * f ≤ 0 ↔ averageChange costs ≤ 0 := by
    rw [← not_lt, ← not_lt, mul_pos_iff_of_pos_right hf]
  simp only [startTemperature, List.length_map, averageChange_mul hf, hsign, ← neg_mul, divide_mul]
  split_ifs
  · rfl
  · rfl
  · cases logarithm (Scalar.smaller acceptance acceptanceLimit) with
    | error e => rfl
    | ok log =>
        simp only [bind, Except.bind]
        cases divide (-averageChange costs) log with
        | error e => rfl
        | ok t => exact congrArg Except.ok (Scalar.larger_mul hf t floor)

/-! ## Levels -/

include hf in
/-- **The temperatures of the levels have the unit of the initial one.** -/
theorem temperature_mul (level : Int) (initial : Rat) (fastLevels : Int) (rate floor : Rat) :
    temperature level (initial * f) fastLevels rate (floor * f)
      = (temperature level initial fastLevels rate floor).map (· * f) := by
  have hclamp : ∀ t : Rat, Scalar.larger (Scalar.smaller (t * f) (initial * f)) (floor * f)
      = Scalar.larger (Scalar.smaller t initial) floor * f := by
    intro t
    rw [Scalar.smaller_mul hf, Scalar.larger_mul hf]
  simp only [temperature, ofInteger_eq_ok, mul_right_comm initial f, divide_mul, bind, Except.bind]
  split_ifs
  · exact congrArg Except.ok (Scalar.larger_mul hf initial floor)
  · cases divide initial (rate * ((level + 1 : Int) : Rat)) with
    | error e => rfl
    | ok t => exact congrArg Except.ok (hclamp t)
  · cases divide initial (rate * (((level + 1) * (level + 1) : Int) : Rat)) with
    | error e => rfl
    | ok t => exact congrArg Except.ok (hclamp (t * fastLevels))

/-- A schedule with its floor in another unit. -/
def Schedule.scaled (f : Rat) (s : Schedule Rat) : Schedule Rat := { s with floor := s.floor * f }

include hf in
lemma Schedule.temperatureAt_mul (s : Schedule Rat) (level : Int) (initial : Rat) :
    (s.scaled f).temperatureAt level (initial * f) = (s.temperatureAt level initial).map (· * f) :=
  temperature_mul hf level initial s.fastLevels s.descentRate s.floor

end BlockPlan
