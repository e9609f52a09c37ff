import BlockPlan.Proofs.Scalar.Exact
import BlockPlan.Sequence.PairwiseSum

/-!
# Pairwise sums in exact arithmetic

In exact arithmetic the order in which a list is added makes no difference.

* **`pairwiseSum_eq`** — a pairwise sum is the sum.
-/

namespace BlockPlan

lemma sum_zipWith_add {xs ys : List Rat} (h : xs.length = ys.length) :
    (List.zipWith (· + ·) xs ys).sum = xs.sum + ys.sum := by
  induction xs generalizing ys with
  | nil =>
      rw [List.length_eq_zero_iff.mp h.symm]
      simp
  | cons x xs ih =>
      cases ys with
      | nil => cases h
      | cons y ys =>
          rw [List.zipWith_cons_cons, List.sum_cons, List.sum_cons, List.sum_cons,
            ih (Nat.succ.inj h)]
          ring

/-- Adding rows to columns keeps the sum of all. -/
lemma addRows_sum (fuel : Nat) : ∀ acc xs : List Rat, acc.length = 8 →
    (addRows fuel acc xs).1.sum + (addRows fuel acc xs).2.sum = acc.sum + xs.sum := by
  induction fuel with
  | zero => exact fun _ _ _ => rfl
  | succ fuel ih =>
      intro acc xs hacc
      rw [addRows]
      split_ifs with hshort
      · rfl
      · have htake : acc.length = (xs.take 8).length := by
          rw [List.length_take, hacc]
          omega
        rw [ih _ _ (by rw [List.length_zipWith, ← htake, hacc, min_self]), sum_zipWith_add htake,
          add_assoc, List.sum_take_add_sum_drop]

lemma foldColumns_eq (xs : List Rat) : foldColumns xs = xs.sum := by
  unfold foldColumns
  split
  · simp only [List.sum_cons, List.sum_nil]
    ring
  · exact Scalar.sum_eq xs

lemma foldl_add (xs : List Rat) (a : Rat) : xs.foldl (· + ·) a = a + xs.sum := by
  induction xs generalizing a with
  | nil => simp
  | cons x xs ih => rw [List.foldl_cons, ih, List.sum_cons, add_assoc]

lemma columnSum_eq (xs : List Rat) : columnSum xs = xs.sum := by
  rw [columnSum]
  split_ifs with hshort
  · exact Scalar.sum_eq xs
  · have hrows := addRows_sum xs.length (xs.take 8) (xs.drop 8) (by rw [List.length_take]; omega)
    simp only [foldl_add, foldColumns_eq, hrows, List.sum_take_add_sum_drop]

lemma halvedSum_eq (fuel : Nat) : ∀ xs : List Rat, halvedSum fuel xs = xs.sum := by
  induction fuel with
  | zero => exact columnSum_eq
  | succ fuel ih =>
      intro xs
      rw [halvedSum]
      split_ifs with hshort
      · exact columnSum_eq xs
      · simp only [ih, List.sum_take_add_sum_drop]

/-- **A pairwise sum is the sum.** -/
theorem pairwiseSum_eq (xs : List Rat) : pairwiseSum xs = xs.sum := halvedSum_eq _ xs

end BlockPlan
