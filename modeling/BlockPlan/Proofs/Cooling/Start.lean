import BlockPlan.Cooling.Start
import BlockPlan.Proofs.Edit
import BlockPlan.Proofs.Scalar.Exact

/-!
# The initial temperature in exact arithmetic

The initial temperature is a quotient by the logarithm of a probability between zero and one.  All
that matters is that this logarithm is not zero.

* `startProbability_mem` — the probability of which the logarithm is taken.
* **`startTemperature_eq_ok`** — every walk has an initial temperature.
* **`floor_le_startTemperature`** — no initial temperature lies below the floor.
-/

namespace BlockPlan

lemma acceptanceLimit_mem : 0 < (acceptanceLimit : Rat) ∧ (acceptanceLimit : Rat) < 1 := by
  decide +kernel

/-- The logarithm is taken of a probability between zero and one, both excluded. -/
lemma startProbability_mem {acceptance : Rat} (h : 0 < acceptance) :
    0 < Scalar.smaller acceptance acceptanceLimit ∧
      Scalar.smaller acceptance acceptanceLimit < 1 := by
  rw [Scalar.smaller_eq_min]
  exact ⟨lt_min h acceptanceLimit_mem.1, (min_le_right _ _).trans_lt acceptanceLimit_mem.2⟩

variable [Transcendental Rat]

lemma logarithm_eq_ok {a : Rat} (h : 0 < a) : logarithm a = .ok (Transcendental.log a) :=
  if_neg h.not_ge

/-- **Every walk has an initial temperature.** -/
theorem startTemperature_eq_ok (hlog : ∀ q : Rat, 0 < q → q < 1 → Transcendental.log q ≠ 0)
    {acceptance : Rat} (h : 0 < acceptance) (costs : List Rat) (floor : Rat) :
    ∃ t, startTemperature costs acceptance floor = .ok t := by
  rw [startTemperature]
  extract_lets average
  split_ifs
  · exact ⟨_, rfl⟩
  · exact ⟨_, rfl⟩
  · obtain ⟨hpos, hlt⟩ := startProbability_mem h
    exact ⟨_, bind_eq_ok.mpr ⟨_, logarithm_eq_ok hpos, bind_eq_ok.mpr
      ⟨_, divide_eq_ok (hlog _ hpos hlt), rfl⟩⟩⟩

/-- **No initial temperature lies below the floor.** -/
theorem floor_le_startTemperature {costs : List Rat} {acceptance floor t : Rat}
    (h : startTemperature costs acceptance floor = .ok t) : floor ≤ t := by
  rw [startTemperature] at h
  extract_lets average at h
  split_ifs at h
  · exact (Except.ok.inj h).le
  · exact (Except.ok.inj h).le
  · obtain ⟨log, -, h⟩ := bind_eq_ok.mp h
    obtain ⟨quotient, -, h⟩ := bind_eq_ok.mp h
    rw [← Except.ok.inj h, Scalar.larger_eq_max]
    exact le_max_right _ _

end BlockPlan
