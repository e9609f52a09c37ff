import Mathlib
import BlockPlan.Fault

/-!
# Exact arithmetic

Plans are computed over any `Scalar`; the theorems about what a plan computes are about the rational
numbers.  There the two choices `Scalar.larger` and `Scalar.smaller` are maximum and minimum, the
equality test is equality, a sum is the sum, and a quotient exists unless the divisor is zero.

* `Scalar.larger_eq_max`, `Scalar.smaller_eq_min`, `Scalar.sum_eq`, `divide_eq_ok` — the operations
  in exact arithmetic.
* `foldl_eq_sum`, `sum_map_eq_zero_iff`, `sum_filter_pos` — sums of which no term is negative.
-/

namespace BlockPlan

namespace Scalar

lemma larger_eq_max (a b : Rat) : larger a b = max a b := by
  simp only [larger]
  split_ifs with h
  · exact (max_eq_right h.le).symm
  · exact (max_eq_left (not_lt.mp h)).symm

lemma smaller_eq_min (a b : Rat) : smaller a b = min a b := by
  simp only [smaller]
  split_ifs with h
  · exact (min_eq_right h.le).symm
  · exact (min_eq_left (not_lt.mp h)).symm

lemma sum_eq (xs : List Rat) : Scalar.sum xs = xs.sum := by
  rw [List.sum_eq_foldl]
  rfl

/-- The largest entry of a list is below exactly the bounds of the list. -/
lemma largest_le_iff {a u : Rat} {rest : List Rat} :
    largest a rest ≤ u ↔ ∀ x ∈ a :: rest, x ≤ u := by
  induction rest generalizing a with
  | nil => simp [largest]
  | cons b rest ih =>
      have hstep : largest a (b :: rest) = largest (larger a b) rest := rfl
      rw [hstep, ih, larger_eq_max]
      simp [and_assoc]

end Scalar

/-! ## Sums over lists -/

section Sums

variable {β : Type} {bs : List β} {f : β → Rat}

/-- What is added up entry by entry is a sum. -/
lemma foldl_eq_sum {step : Rat → β → Rat} (h : ∀ total b, step total b = total + f b)
    (bs : List β) :
    bs.foldl step 0 = (bs.map f).sum := by
  have hstep : step = fun total b => total + f b := funext fun total => funext (h total)
  rw [hstep, List.sum_eq_foldl, List.foldl_map]

/-- A sum in which nothing is negative is zero exactly if everything in it is. -/
lemma sum_map_eq_zero_iff (h : ∀ b ∈ bs, 0 ≤ f b) : (bs.map f).sum = 0 ↔ ∀ b ∈ bs, f b = 0 := by
  constructor
  · intro hsum b hb
    refine List.all_zero_of_le_zero_le_of_sum_eq_zero (fun x hx => ?_) hsum (List.mem_map_of_mem hb)
    obtain ⟨c, hc, rfl⟩ := List.mem_map.mp hx
    exact h c hc
  · intro hzero
    refine List.sum_eq_zero fun x hx => ?_
    obtain ⟨b, hb, rfl⟩ := List.mem_map.mp hx
    exact hzero b hb

/-- Zeros can be left out of a sum in which nothing is negative. -/
lemma sum_filter_pos (h : ∀ b ∈ bs, 0 ≤ f b) :
    ((bs.filter fun b => decide (0 < f b)).map f).sum = (bs.map f).sum := by
  induction bs with
  | nil => rfl
  | cons b rest ih =>
      have hrest := ih fun c hc => h c (by simp [hc])
      by_cases hpos : 0 < f b
      · rw [List.filter_cons_of_pos (by simpa using hpos), List.map_cons, List.map_cons,
          List.sum_cons, List.sum_cons, hrest]
      · have hzero : f b = 0 := le_antisymm (not_lt.mp hpos) (h b (by simp))
        rw [List.filter_cons_of_neg (by simpa using hpos), hrest, List.map_cons, List.sum_cons,
          hzero, zero_add]

end Sums

/-- The tangents of the exponential at `0` and of logarithm and square root at `1`. -/
@[reducible] def Transcendental.tangent : Transcendental Rat :=
  ⟨fun a => 1 + a, fun a => a - 1, fun a => (1 + a) / 2⟩

lemma divide_eq_ok {a b : Rat} (h : b ≠ 0) : divide a b = .ok (a / b) := by
  simp [divide, h]

end BlockPlan
