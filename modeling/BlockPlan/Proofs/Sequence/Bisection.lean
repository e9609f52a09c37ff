import Mathlib
import BlockPlan.Sequence.Bisection

/-!
# Bisection of sorted lists

Halving keeps that the test holds in front of the range and fails behind it, if what fails at some
place fails from there on.  In a sorted list it finds the two ends of the stretch that holds a
number.

* **`bisect_spec`** — the test holds up to the place that is found, and fails from there on.
* **`lt_lowerPlace_iff`**, **`lt_upperPlace_iff`** — which entries lie in front of the two ends.
-/

namespace BlockPlan

/-- **The test holds up to the place that is found, and fails from there on**, if it does not hold
again once it has failed. -/
theorem bisect_spec {middle : Middle} {test : Nat → Bool}
    (htest : ∀ p q, p ≤ q → test q = true → test p = true) (lo hi : Nat) (hle : lo ≤ hi) :
    (lo ≤ bisect middle test lo hi ∧ bisect middle test lo hi ≤ hi) ∧
      ∀ p, lo ≤ p → p < hi → (test p = true ↔ p < bisect middle test lo hi) := by
  induction lo, hi using bisect.induct middle test with
  | case1 lo hi hlt hmem mid hmid ih =>
      have hstep : bisect middle test lo hi = bisect middle test (mid + 1) hi := by
        rw [bisect, dif_pos hlt, if_pos hmid]
      rw [hstep]
      obtain ⟨⟨hlow, hhigh⟩, hiff⟩ := ih (by omega)
      refine ⟨⟨by omega, hhigh⟩, fun p hp hp' => ?_⟩
      rcases Nat.lt_or_ge mid p with hgt | hle'
      · exact hiff p hgt hp'
      · exact ⟨fun _ => by omega, fun _ => htest p mid hle' hmid⟩
  | case2 lo hi hlt hmem mid hmid ih =>
      have hstep : bisect middle test lo hi = bisect middle test lo mid := by
        rw [bisect, dif_pos hlt, if_neg hmid]
      rw [hstep]
      obtain ⟨⟨hlow, hhigh⟩, hiff⟩ := ih hmem.1
      refine ⟨⟨hlow, by omega⟩, fun p hp hp' => ?_⟩
      rcases Nat.lt_or_ge p mid with hlt' | hge
      · exact hiff p hp hlt'
      · exact ⟨fun h => absurd (htest mid p hge h) hmid, fun _ => by omega⟩
  | case3 lo hi hnot =>
      rw [bisect, dif_neg hnot]
      exact ⟨⟨le_rfl, hle⟩, fun p hp hp' => by omega⟩

section Sorted

variable {xs : List Rat} (hsorted : xs.Pairwise (· ≤ ·))

include hsorted

lemma getElem?_mono {p q : Nat} {a b : Rat} (hle : p ≤ q) (ha : xs[p]? = some a)
    (hb : xs[q]? = some b) : a ≤ b := by
  obtain ⟨hp, rfl⟩ := List.getElem?_eq_some_iff.mp ha
  obtain ⟨hq, rfl⟩ := List.getElem?_eq_some_iff.mp hb
  rcases hle.eq_or_lt with rfl | hlt
  · exact le_rfl
  · exact List.pairwise_iff_getElem.mp hsorted p q hp hq hlt

/-- The places of a sorted list that pass a test for small entries are those in front of the one
that is found. -/
lemma lt_bisect_iff {test : Nat → Bool} (small : Rat → Prop)
    (hsmall : ∀ a b, a ≤ b → small b → small a)
    (htest : ∀ p, test p = true ↔ ∃ a, xs[p]? = some a ∧ small a) {p : Nat} {a : Rat}
    (ha : xs[p]? = some a) : p < bisect .upper test 0 xs.length ↔ small a := by
  have hlt : p < xs.length := (List.getElem?_eq_some_iff.mp ha).1
  have hdown : ∀ p q, p ≤ q → test q = true → test p = true := by
    intro p q hle hq
    obtain ⟨b, hb, hsmallb⟩ := (htest q).mp hq
    have hp : p < xs.length := hle.trans_lt (List.getElem?_eq_some_iff.mp hb).1
    have hentry := List.getElem?_eq_getElem hp
    exact (htest p).mpr ⟨_, hentry, hsmall _ b (getElem?_mono hsorted hle hentry hb) hsmallb⟩
  rw [← (bisect_spec hdown 0 xs.length (Nat.zero_le _)).2 p (Nat.zero_le _) hlt, htest, ha]
  simp

/-- **The entries in front of the lower place are those below the number.** -/
theorem lt_lowerPlace_iff {p : Nat} {a x : Rat} (ha : xs[p]? = some a) :
    p < lowerPlace xs x ↔ a < x := by
  refine lt_bisect_iff hsorted (fun y => y < x) (fun a b hle hb => hle.trans_lt hb) (fun p => ?_) ha
  cases xs[p]? with
  | none => simp
  | some y => simp

/-- **The entries in front of the upper place are those up to the number.** -/
theorem lt_upperPlace_iff {p : Nat} {a x : Rat} (ha : xs[p]? = some a) :
    p < upperPlace xs x ↔ a ≤ x := by
  refine lt_bisect_iff hsorted (fun y => y ≤ x) (fun a b hle hb => hle.trans hb) (fun p => ?_) ha
  cases xs[p]? with
  | none => simp
  | some y => simp

end Sorted

end BlockPlan
