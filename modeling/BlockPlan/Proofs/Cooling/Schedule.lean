import BlockPlan.Cooling.Schedule
import BlockPlan.Proofs.Edit
import BlockPlan.Proofs.Scalar.Exact

/-!
# The schedule in exact arithmetic

A schedule that passes its checks has at least one level and one trial on each, and every level has
a temperature above zero.

* `coolingAt`, **`temperature_eq_ok`** — the temperature of a level by the three formulas, and held
  above the floor.
* `Schedule.Sensible`, **`Schedule.validate_ok_iff`** — what the checks of a schedule ask for.
* **`Schedule.temperatureAt_eq_ok`** — every level has a temperature, which does not lie below the
  floor.
-/

namespace BlockPlan

lemma ofInteger_eq_ok (i : Int) : (ofInteger i : Except (Fault Rat) Rat) = .ok (i : Rat) := rfl

/-! ## The temperature of a level -/

/-- The temperature of a level before it is held above the floor. -/
def coolingAt (initial : Rat) (fastLevels : Int) (rate : Rat) (level : Int) : Rat :=
  if level ≤ 0 then initial
  else if level < fastLevels then min (initial / (rate * (level + 1))) initial
  else min (initial * fastLevels / (rate * ((level + 1) * (level + 1)))) initial

section Formulas

variable {initial rate : Rat} {fastLevels level : Int}

lemma coolingAt_start (h : level ≤ 0) :
    coolingAt initial fastLevels rate level = initial := if_pos h

lemma coolingAt_fast (hpos : 0 < level) (hfast : level < fastLevels) :
    coolingAt initial fastLevels rate level = min (initial / (rate * (level + 1))) initial := by
  rw [coolingAt, if_neg (not_le.mpr hpos), if_pos hfast]

lemma coolingAt_slow (hpos : 0 < level) (hslow : fastLevels ≤ level) :
    coolingAt initial fastLevels rate level
      = min (initial * fastLevels / (rate * ((level + 1) * (level + 1)))) initial := by
  rw [coolingAt, if_neg (not_le.mpr hpos), if_neg (not_lt.mpr hslow)]

/-- **The temperature of a level is that of the formulas, held above the floor.** -/
theorem temperature_eq_ok (hrate : rate ≠ 0) (floor : Rat) :
    temperature level initial fastLevels rate floor
      = .ok (max (coolingAt initial fastLevels rate level) floor) := by
  have hnext : (level : Rat) + 1 = ((level + 1 : Int) : Rat) := by push_cast; rfl
  have hsquare : ((level : Rat) + 1) * (level + 1) = ((level + 1) * (level + 1) : Int) := by
    push_cast
    rfl
  rw [temperature]
  rcases le_or_gt level 0 with hstart | hpos
  · rw [if_pos hstart, coolingAt_start hstart, ← Scalar.larger_eq_max]
    rfl
  have hne : (level : Rat) + 1 ≠ 0 := by exact_mod_cast (by omega : level + 1 ≠ 0)
  rw [if_neg (not_le.mpr hpos)]
  rcases lt_or_ge level fastLevels with hfast | hslow
  · have hdivisor : rate * ((level + 1 : Int) : Rat) ≠ 0 := mul_ne_zero hrate (hnext ▸ hne)
    rw [if_pos hfast, coolingAt_fast hpos hfast, hnext, ← Scalar.smaller_eq_min,
      ← Scalar.larger_eq_max]
    exact bind_eq_ok.mpr ⟨_, ofInteger_eq_ok _, bind_eq_ok.mpr ⟨_, divide_eq_ok hdivisor, rfl⟩⟩
  · have hdivisor : rate * (((level + 1) * (level + 1) : Int) : Rat) ≠ 0 :=
      mul_ne_zero hrate (hsquare ▸ mul_ne_zero hne hne)
    rw [if_neg (not_lt.mpr hslow), coolingAt_slow hpos hslow, hsquare, ← Scalar.smaller_eq_min,
      ← Scalar.larger_eq_max]
    exact bind_eq_ok.mpr ⟨_, ofInteger_eq_ok _, bind_eq_ok.mpr ⟨_, ofInteger_eq_ok _,
      bind_eq_ok.mpr ⟨_, divide_eq_ok hdivisor, rfl⟩⟩⟩

end Formulas

/-! ## Settings that make sense -/

namespace Schedule

/-- What the settings of a run have to be. -/
structure Sensible (s : Schedule Rat) : Prop where
  acceptance_pos : 0 < s.initialAcceptance
  acceptance_le : s.initialAcceptance ≤ 1
  levels : 1 ≤ s.levels
  trials : 1 ≤ s.trials
  fastLevels : 1 ≤ s.fastLevels
  rate : 1 / 2 < s.descentRate
  floor : 0 < s.floor
  reportInterval : 1 ≤ s.reportInterval

/-- **A schedule passes its checks exactly if its settings make sense.** -/
theorem validate_ok_iff {s : Schedule Rat} : s.validate = .ok () ↔ s.Sensible := by
  have hhalf : (Scalar.ratio 1 2 : Rat) = 1 / 2 := by norm_num [Scalar.ratio]
  rw [validate, hhalf]
  constructor
  · intro h
    split_ifs at h with hacceptance hlevels htrials hfast hrate hfloor hinterval
    exact ⟨hacceptance.1, hacceptance.2, not_lt.mp hlevels, not_lt.mp htrials, not_lt.mp hfast,
      not_le.mp hrate, not_le.mp hfloor, not_lt.mp hinterval⟩
  · intro h
    rw [if_neg (not_not_intro ⟨h.acceptance_pos, h.acceptance_le⟩), if_neg (not_lt.mpr h.levels),
      if_neg (not_lt.mpr h.trials), if_neg (not_lt.mpr h.fastLevels), if_neg (not_le.mpr h.rate),
      if_neg (not_le.mpr h.floor), if_neg (not_lt.mpr h.reportInterval)]

/-- **Every level has a temperature, which does not lie below the floor.** -/
theorem temperatureAt_eq_ok {s : Schedule Rat} (h : s.Sensible) (level : Nat) (initial : Rat) :
    ∃ t, s.temperatureAt level initial = .ok t ∧ s.floor ≤ t := by
  have hrate : s.descentRate ≠ 0 := ((by norm_num : (0 : Rat) < 1 / 2).trans h.rate).ne'
  exact ⟨_, temperature_eq_ok hrate s.floor, le_max_right _ _⟩

end Schedule

end BlockPlan
