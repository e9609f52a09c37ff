import Mathlib
import BlockPlan.Proofs.Cost.Tally

/-!
# What the norms do to the cost

The norm of a term is its mean over some samples, or one if there is nothing to divide by.  So over
the samples a term costs its weight on average if it is not zero in all of them, and nothing
otherwise.

* `costOf_toList`, `total_eq_costOf` — the two ways to work out a cost agree, also where they fail.
* `mean_div_norm` — a term over its norm is one on average, or zero.
* **`costs_setNorms`** — the mean cost of the samples is the weight of the terms that occur in them.
-/

namespace BlockPlan.Tally

variable {tally : Tally Rat}

/-! ## Two ways to work out a cost -/

/-- It makes no difference whether a value is weighed before or after it is divided by its norm. -/
lemma divide_mul (w v n : Rat) :
    divide (w * v) n = (do pure (w * (← divide v n)) : Except (Fault Rat) Rat) := by
  by_cases hn : n = 0
  · simp [divide, hn, bind, Except.bind]
  · rw [divide_eq_ok hn, divide_eq_ok hn, mul_div_assoc]
    rfl

/-- The cost of a list with one value for each term is what the total would be with these values. -/
lemma costOf_toList (tally : Tally Rat) (weights : Weights Rat) (values : PerTerm Rat) :
    tally.costOf weights values.toList
        = ({ tally with raw := values } : Tally Rat).total weights := by
  have hzip : List.zip Term.all values.toList = Term.all.map fun t => (t, values.get t) := rfl
  have hterm : ∀ t, divide (weights.get t * values.get t) (tally.norm.get t)
      = ({ tally with raw := values } : Tally Rat).costOfTerm weights t :=
    fun t => divide_mul _ _ _
  rw [costOf, total, hzip, List.mapM_map]
  simp only [Function.comp_def, hterm]

/-- **The total is the cost of the raw values**, whatever they are, also where there is none. -/
theorem total_eq_costOf (tally : Tally Rat) (weights : Weights Rat) :
    tally.total weights = tally.costOf weights tally.raw.toList :=
  (costOf_toList tally weights tally.raw).symm

/-! ## The norms of samples -/

/-- Only norms are changed by samples, and they do not depend on the raw values. -/
lemma setNorms_congr {tally' : Tally Rat} (hnorm : tally'.norm = tally.norm)
    (samples : List (PerTerm Rat)) :
    tally'.setNorms samples = { tally' with norm := (tally.setNorms samples).norm } := by
  rw [setNorms, setNorms]
  split_ifs
  · rw [← hnorm]
  · rfl

/-- Samples change the norms once. -/
@[simp] lemma setNorms_setNorms (tally : Tally Rat) (samples : List (PerTerm Rat)) :
    (tally.setNorms samples).setNorms samples = tally.setNorms samples := by
  cases hnone : samples.isEmpty <;> simp [setNorms, hnone]

/-! ## The cost of samples -/

/-- The weight of the terms that are not zero in all of some samples. -/
def activeWeight (weights : Weights Rat) (samples : List (PerTerm Rat)) : Rat :=
  (Term.all.map fun t => if ∃ s ∈ samples, s.get t ≠ 0 then weights.get t else 0).sum

/-- What the samples would cost together with the norms at hand. -/
lemma sum_costs (weights norms : PerTerm Rat) (samples : List (PerTerm Rat)) :
    (samples.map fun s => (Term.all.map fun t => weights.get t * (s.get t / norms.get t)).sum).sum
      = (Term.all.map fun t =>
        weights.get t * ((samples.map (·.get t)).sum / norms.get t)).sum := by
  induction samples with
  | nil => simp
  | cons s samples ih =>
      rw [List.map_cons, List.sum_cons, ih, ← List.sum_map_add]
      refine congrArg List.sum (List.map_congr_left fun t _ => ?_)
      rw [List.map_cons, List.sum_cons, add_div, mul_add]

section Samples

variable {samples : List (PerTerm Rat)} (hsome : samples ≠ [])

include hsome

lemma setNorms_norm (tally : Tally Rat) (t : Term) :
    (tally.setNorms samples).norm.get t = if 0 < mean samples t then mean samples t else 1 := by
  rw [setNorms, if_neg (by simpa using hsome)]
  exact PerTerm.get_ofFn _ t

/-- Samples leave norms above zero, whatever the norms were before. -/
lemma positiveNorms_setNorms (tally : Tally Rat) : (tally.setNorms samples).PositiveNorms := by
  intro t
  rw [setNorms_norm hsome]
  split_ifs with hmean
  · exact hmean
  · exact one_pos

variable (hnonneg : ∀ s ∈ samples, ∀ t, 0 ≤ s.get t)

include hnonneg

/-- On average a term is its norm, or zero if it is zero in all samples. -/
lemma mean_div_norm (tally : Tally Rat) (t : Term) :
    mean samples t / (tally.setNorms samples).norm.get t = if ∃ s ∈ samples,
      s.get t ≠ 0 then 1 else 0 := by
  have hlength : (0 : Rat) < (samples.length : Nat) := by
    exact_mod_cast List.length_pos_iff.mpr hsome
  have hmean : mean samples t = (samples.map (·.get t)).sum / (samples.length : Nat) := by
    rw [mean, Scalar.sum_eq]
  have hzero : mean samples t = 0 ↔ ∀ s ∈ samples, s.get t = 0 := by
    rw [hmean, div_eq_zero_iff, or_iff_left hlength.ne']
    exact sum_map_eq_zero_iff fun s hs => hnonneg s hs t
  rw [setNorms_norm hsome]
  by_cases hactive : ∃ s ∈ samples, s.get t ≠ 0
  · have hne : mean samples t ≠ 0 := fun h => by
      obtain ⟨s, hs, hst⟩ := hactive
      exact hst (hzero.mp h s hs)
    have hpos : 0 < mean samples t := by
      refine lt_of_le_of_ne ?_ hne.symm
      rw [hmean]
      refine div_nonneg (List.sum_nonneg fun v hv => ?_) hlength.le
      obtain ⟨s, hs, rfl⟩ := List.mem_map.mp hv
      exact hnonneg s hs t
    rw [if_pos hpos, if_pos hactive, div_self hne]
  · rw [if_neg hactive, hzero.mpr (by push Not at hactive; exact hactive), zero_div]

/-- **With the norms of some samples, these cost on average what the terms weigh that occur in
them.** -/
theorem costs_setNorms (tally : Tally Rat) (weights : Weights Rat) :
    ∃ costs, samples.mapM (fun s => (tally.setNorms samples).costOf weights s.toList) = .ok costs ∧
      costs.sum / (costs.length : Nat) = activeWeight weights samples := by
  set norms := (tally.setNorms samples).norm with hnorms
  have hcost : ∀ s ∈ samples, (tally.setNorms samples).costOf weights s.toList
      = .ok (Term.all.map fun t => weights.get t * (s.get t / norms.get t)).sum := by
    intro s _
    have hpositive : ({ tally.setNorms samples with raw := s } : Tally Rat).PositiveNorms :=
      positiveNorms_setNorms hsome tally
    rw [costOf_toList, total_eq_ok hpositive, Scalar.sum_eq]
  refine ⟨_, mapM_eq_ok hcost, ?_⟩
  rw [List.length_map, sum_costs, div_eq_mul_inv, ← List.sum_map_mul_right, activeWeight]
  refine congrArg List.sum (List.map_congr_left fun t _ => ?_)
  have hshare := mean_div_norm hsome hnonneg tally t
  rw [mean, Scalar.sum_eq, ← hnorms] at hshare
  calc
    weights.get t * ((samples.map (·.get t)).sum / norms.get t) * ((samples.length : Nat) : Rat)⁻¹
      = weights.get t * ((samples.map (·.get t)).sum / (samples.length : Nat) / norms.get t) := by
        ring
    _ = if ∃ s ∈ samples, s.get t ≠ 0 then weights.get t else 0 := by
      rw [hshare]
      split_ifs
      · exact mul_one _
      · exact mul_zero _

end Samples

end BlockPlan.Tally
