import Mathlib
import BlockPlan.Cells.Grid
import BlockPlan.Proofs.Sequence.Bisection

/-!
# The lines of a grid

The lines of an axis are the two ends of the outline and the coordinates between them, in strictly
ascending order.  A span of coordinates is mapped to the cells that it reaches into.

* **`mem_cutLines_iff`**, **`cutLines_sorted`** — which lines there are, and their order.
* **`cutLines_divides`** — they lead from zero to the side of the outline.
* **`cellRange_spec`** — the cells of a span are those that end behind its start and start in front
  of its end.
* `cellRange_cutLines_iff` — the cells of a span that the axis was cut for lie inside it.
* `cellRange_eq` — a span from one line to another has the cells between the two.
-/

namespace BlockPlan

/-! ## Cutting an axis -/

lemma mem_addLine_iff {lines : List Rat} {x y : Rat} : x ∈ addLine lines y ↔ x ∈ lines ∨ x = y := by
  rw [addLine]
  split_ifs with h
  · obtain ⟨z, hz, hzy⟩ := List.any_eq_true.mp h
    rw [beq_iff_eq] at hzy
    subst hzy
    constructor
    · exact Or.inl
    · rintro (hx | rfl)
      · exact hx
      · exact hz
  · rw [List.mem_append, List.mem_singleton]

lemma addLine_nodup {lines : List Rat} (h : lines.Nodup) (x : Rat) : (addLine lines x).Nodup := by
  rw [addLine]
  split_ifs with hx
  · exact h
  · refine List.nodup_append.mpr ⟨h, by simp, fun y hy z hz => ?_⟩
    rintro rfl
    exact hx (List.any_eq_true.mpr ⟨y, hy, beq_iff_eq.mpr (List.mem_singleton.mp hz)⟩)

lemma mem_foldl_addLine_iff {lines coordinates : List Rat} {x : Rat} :
    x ∈ coordinates.foldl addLine lines ↔ x ∈ lines ∨ x ∈ coordinates := by
  induction coordinates generalizing lines with
  | nil => simp
  | cons y rest ih => rw [List.foldl_cons, ih, mem_addLine_iff, List.mem_cons, or_assoc]

lemma foldl_addLine_nodup {lines : List Rat} (h : lines.Nodup) (coordinates : List Rat) :
    (coordinates.foldl addLine lines).Nodup := by
  induction coordinates generalizing lines with
  | nil => exact h
  | cons y rest ih => exact ih (addLine_nodup h y)

/-- **The lines are the ends of the outline and the coordinates strictly between.** -/
theorem mem_cutLines_iff {side : Rat} {coordinates : List Rat} {x : Rat} :
    x ∈ cutLines side coordinates ↔ x = 0 ∨ x = side ∨ x ∈ coordinates ∧ 0 < x ∧ x < side := by
  simp only [cutLines, List.mem_mergeSort, mem_foldl_addLine_iff, mem_addLine_iff,
    List.mem_singleton, List.mem_filter, Bool.and_eq_true, decide_eq_true_eq, or_assoc]

/-- **The lines ascend strictly.** -/
theorem cutLines_sorted (side : Rat) (coordinates : List Rat) :
    (cutLines side coordinates).Pairwise (· < ·) := by
  have hnodup : (cutLines side coordinates).Nodup :=
    (List.mergeSort_perm _ _).nodup_iff.mpr
      (foldl_addLine_nodup (addLine_nodup (List.nodup_singleton 0) side) _)
  have hsorted : (cutLines side coordinates).Pairwise fun a b => (!decide (b < a)) = true := by
    refine List.pairwise_mergeSort (fun a b c hab hbc => ?_) (fun a b => ?_) _
    · simp only [Bool.not_eq_true', decide_eq_false_iff_not, not_lt] at hab hbc ⊢
      exact hab.trans hbc
    · simp only [Bool.or_eq_true, Bool.not_eq_true', decide_eq_false_iff_not, not_lt]
      exact le_total a b
  refine (hsorted.and hnodup).imp fun hab => ?_
  simp only [Bool.not_eq_true', decide_eq_false_iff_not, not_lt] at hab
  exact lt_of_le_of_ne hab.1 hab.2

/-- No line lies outside the outline. -/
lemma cutLines_mem_bounds {side : Rat} (hside : 0 < side) {coordinates : List Rat} {x : Rat}
    (hx : x ∈ cutLines side coordinates) : 0 ≤ x ∧ x ≤ side := by
  rcases mem_cutLines_iff.mp hx with rfl | rfl | ⟨-, hpos, hlt⟩
  · exact ⟨le_rfl, hside.le⟩
  · exact ⟨hside.le, le_rfl⟩
  · exact ⟨hpos.le, hlt.le⟩

lemma cutLines_getD_bounds {side : Rat} (hside : 0 < side) {coordinates : List Rat} {k : Nat}
    (hk : k < (cutLines side coordinates).length) :
    0 ≤ (cutLines side coordinates).getD k 0 ∧ (cutLines side coordinates).getD k 0 ≤ side := by
  rw [List.getD_eq_getElem _ _ hk]
  exact cutLines_mem_bounds hside (List.getElem_mem hk)

/-- Lines that divide a side: they lead from zero to its end and ascend strictly. -/
structure Divides (side : Rat) (lines : List Rat) : Prop where
  sorted : lines.Pairwise (· < ·)
  head? : lines.head? = some 0
  getLast? : lines.getLast? = some side

lemma Divides.getD_zero {side : Rat} {lines : List Rat} (h : Divides side lines) :
    lines.getD 0 0 = 0 := by
  rw [List.getD_eq_getElem?_getD, ← List.head?_eq_getElem?, h.head?, Option.getD_some]

lemma Divides.getD_last {side : Rat} {lines : List Rat} (h : Divides side lines) :
    lines.getD (lines.length - 1) 0 = side := by
  rw [List.getD_eq_getElem?_getD, ← List.getLast?_eq_getElem?, h.getLast?, Option.getD_some]

/-- The least entry of an ascending list is the first one. -/
lemma head?_eq_of_le {lines : List Rat} (hsorted : lines.Pairwise (· < ·)) {x : Rat}
    (hx : x ∈ lines) (hle : ∀ y ∈ lines, x ≤ y) : lines.head? = some x := by
  cases lines with
  | nil => exact absurd hx List.not_mem_nil
  | cons y rest =>
      rcases List.mem_cons.mp hx with rfl | hx
      · rfl
      · exact absurd ((List.pairwise_cons.mp hsorted).1 x hx) (hle y List.mem_cons_self).not_gt

/-- The greatest entry of an ascending list is the last one. -/
lemma getLast?_eq_of_ge {lines : List Rat} (hsorted : lines.Pairwise (· < ·)) {x : Rat}
    (hx : x ∈ lines) (hge : ∀ y ∈ lines, y ≤ x) : lines.getLast? = some x := by
  obtain ⟨i, hi, rfl⟩ := List.mem_iff_getElem.mp hx
  have hlast : i = lines.length - 1 := by
    by_contra hne
    exact (List.pairwise_iff_getElem.mp hsorted i (i + 1) hi (by omega) i.lt_succ_self).not_ge
      (hge _ (List.getElem_mem _))
  rw [List.getLast?_eq_getElem?, ← hlast, List.getElem?_eq_getElem hi]

/-- **The lines lead from zero to the side of the outline.** -/
theorem cutLines_divides {side : Rat} (hside : 0 < side) (coordinates : List Rat) :
    Divides side (cutLines side coordinates) where
  sorted := cutLines_sorted side coordinates
  head? := head?_eq_of_le (cutLines_sorted side coordinates) (mem_cutLines_iff.mpr (Or.inl rfl))
    fun _ hy => (cutLines_mem_bounds hside hy).1
  getLast? := getLast?_eq_of_ge (cutLines_sorted side coordinates)
    (mem_cutLines_iff.mpr (Or.inr (Or.inl rfl))) fun _ hy => (cutLines_mem_bounds hside hy).2

/-! ## The cells of a span -/

section Range

variable {lines : List Rat} (hsorted : lines.Pairwise (· < ·))

include hsorted

lemma line_lt_iff {i j : Nat} {a b : Rat} (ha : lines[i]? = some a) (hb : lines[j]? = some b) :
    a < b ↔ i < j := by
  obtain ⟨hi, rfl⟩ := List.getElem?_eq_some_iff.mp ha
  obtain ⟨hj, rfl⟩ := List.getElem?_eq_some_iff.mp hb
  constructor
  · intro hlt
    by_contra hge
    rcases (not_lt.mp hge).eq_or_lt with rfl | hji
    · exact lt_irrefl _ hlt
    · exact lt_asymm hlt (List.pairwise_iff_getElem.mp hsorted j i hj hi hji)
  · exact List.pairwise_iff_getElem.mp hsorted i j hi hj

/-- **The cells of a span are those that end behind its start and start in front of its end.** -/
theorem cellRange_spec (start finish : Rat) {k : Nat} {a b : Rat} (ha : lines[k]? = some a)
    (hb : lines[k + 1]? = some b) :
    ((cellRange start finish lines).1 ≤ k ∧ (k : Int) < (cellRange start finish lines).2) ↔
      start < b ∧ a < finish := by
  have hle : lines.Pairwise (· ≤ ·) := hsorted.imp le_of_lt
  have hlt : k + 1 < lines.length := (List.getElem?_eq_some_iff.mp hb).1
  have hupper := lt_upperPlace_iff hle hb (x := start)
  have hlower := lt_lowerPlace_iff hle ha (x := finish)
  rw [← hlower, show start < b ↔ ¬ b ≤ start from not_le.symm, ← hupper, cellRange]
  dsimp only
  split_ifs <;> omega

omit hsorted in
lemma cellRange_bounds (start finish : Rat) (hne : lines ≠ []) :
    0 ≤ (cellRange start finish lines).1 ∧
      (cellRange start finish lines).1 ≤ (cellRange start finish lines).2 ∧
      (cellRange start finish lines).2 + 1 ≤ lines.length := by
  have hpos : 0 < lines.length := List.length_pos_iff.mpr hne
  rw [cellRange]
  dsimp only
  split_ifs <;> omega

omit hsorted in
/-- Between two lines a point lies in one of the cells, or on its lower line. -/
lemma exists_cell_of_between {s e : Nat} {x : Rat} (hle : s ≤ e) (hs : lines.getD s 0 ≤ x)
    (he : x < lines.getD e 0) : ∃ k, s ≤ k ∧ k < e ∧ lines.getD k 0 ≤ x ∧
      x < lines.getD (k + 1) 0 := by
  induction e, hle using Nat.le_induction with
  | base => exact absurd he hs.not_gt
  | succ e hle ih =>
      rcases lt_or_ge x (lines.getD e 0) with hlt | hge
      · obtain ⟨k, hsk, hke, hk⟩ := ih hlt
        exact ⟨k, hsk, hke.trans e.lt_succ_self, hk⟩
      · exact ⟨e, hle, e.lt_succ_self, hge, he⟩

omit hsorted in
/-- A span inside the outline that has a length has cells. -/
lemma cellRange_lt {side start finish : Rat} (h : Divides side lines) (hfirst : 0 ≤ start)
    (hlt : start < finish) (hlast : finish ≤ side) :
    (cellRange start finish lines).1 < (cellRange start finish lines).2 := by
  obtain ⟨k, -, hk, hbefore, hbehind⟩ := exists_cell_of_between (lines.length - 1).zero_le
    (h.getD_zero.trans_le hfirst) (hlt.trans_le (hlast.trans_eq h.getD_last.symm))
  rw [List.getD_eq_getElem _ _ (by omega)] at hbefore hbehind
  have hcell := (cellRange_spec h.sorted start finish (List.getElem?_eq_getElem (by omega))
    (List.getElem?_eq_getElem (by omega))).mpr ⟨hbehind, hbefore.trans_lt hlt⟩
  exact hcell.1.trans_lt hcell.2

/-- A span from one line to another that is not empty has the cells between the two. -/
lemma cellRange_eq {i j : Nat} {a b : Rat} (ha : lines[i]? = some a) (hb : lines[j]? = some b)
    (hne : (cellRange a b lines).1 < (cellRange a b lines).2) :
    i < j ∧ cellRange a b lines = ((i : Int), (j : Int)) := by
  have hj : j < lines.length := (List.getElem?_eq_some_iff.mp hb).1
  have hlines : lines ≠ [] := List.ne_nil_of_length_pos (Nat.zero_lt_of_lt hj)
  obtain ⟨hnonneg, -, hlast⟩ := cellRange_bounds a b hlines
  have hcell : ∀ k : Nat, k + 1 < lines.length →
      ((cellRange a b lines).1 ≤ k ∧ (k : Int) < (cellRange a b lines).2 ↔ i < k + 1 ∧ k < j) := by
    intro k hk
    rw [cellRange_spec hsorted a b (List.getElem?_eq_getElem (by omega))
        (List.getElem?_eq_getElem hk),
      line_lt_iff hsorted ha (List.getElem?_eq_getElem hk),
      line_lt_iff hsorted (List.getElem?_eq_getElem (by omega)) hb]
  -- the first cell of the span lies between the lines, and so do the first and the last one between
  -- them
  obtain ⟨first, hfirst⟩ := Int.eq_ofNat_of_zero_le hnonneg
  have hone := (hcell first (by omega)).mp ⟨by omega, by omega⟩
  have htwo := (hcell i (by omega)).mpr ⟨by omega, by omega⟩
  have hthree := (hcell (j - 1) (by omega)).mpr ⟨by omega, by omega⟩
  have hfour : (cellRange a b lines).2 ≤ j := by
    by_contra hgt
    have := (hcell j (by omega)).mp ⟨by omega, by omega⟩
    omega
  exact ⟨by omega, Prod.ext (by omega) (by omega)⟩

end Range

section Cut

variable {side : Rat} {coordinates : List Rat} {k : Nat} {a b : Rat} (hside : 0 < side)
    (ha : (cutLines side coordinates)[k]? = some a)
    (hb : (cutLines side coordinates)[k + 1]? = some b)

include hside ha hb

/-- No coordinate lies strictly between two lines that follow each other. -/
lemma le_or_le_of_mem {x : Rat} (hx : x ∈ coordinates) : x ≤ a ∨ b ≤ x := by
  by_contra hbetween
  rw [not_or, not_le, not_le] at hbetween
  have hsorted := cutLines_sorted side coordinates
  have hmem : x ∈ cutLines side coordinates := mem_cutLines_iff.mpr (Or.inr (Or.inr ⟨hx,
    (cutLines_mem_bounds hside (List.mem_of_getElem? ha)).1.trans_lt hbetween.1,
    hbetween.2.trans_le (cutLines_mem_bounds hside (List.mem_of_getElem? hb)).2⟩))
  obtain ⟨j, hj⟩ := List.mem_iff_getElem?.mp hmem
  have hafter := (line_lt_iff hsorted ha hj).mp hbetween.1
  have hbefore := (line_lt_iff hsorted hj hb).mp hbetween.2
  omega

/-- The cells of a span that the axis was cut for lie inside it. -/
lemma cellRange_cutLines_iff {start finish : Rat} (hstart : start ∈ coordinates)
    (hfinish : finish ∈ coordinates) :
    ((cellRange start finish (cutLines side coordinates)).1 ≤ k ∧
        (k : Int) < (cellRange start finish (cutLines side coordinates)).2) ↔
      start ≤ a ∧ b ≤ finish := by
  have hsorted := cutLines_sorted side coordinates
  have hab : a < b := (line_lt_iff hsorted ha hb).mpr k.lt_succ_self
  rw [cellRange_spec hsorted start finish ha hb]
  constructor
  · rintro ⟨hbehind, hbefore⟩
    exact ⟨(le_or_le_of_mem hside ha hb hstart).resolve_right hbehind.not_ge,
      (le_or_le_of_mem hside ha hb hfinish).resolve_left hbefore.not_ge⟩
  · rintro ⟨hfrom, hupto⟩
    exact ⟨hfrom.trans_lt hab, hab.trans_le hupto⟩

end Cut

/-- The cells of a span inside the outline whose ends are among the coordinates. -/
lemma cellRange_cutLines {side start finish : Rat} {coordinates : List Rat} (hside : 0 < side)
    (hstart : start ∈ coordinates) (hfinish : finish ∈ coordinates) (hfirst : 0 ≤ start)
    (hlast : finish ≤ side)
    (hne : (cellRange start finish (cutLines side coordinates)).1
      < (cellRange start finish (cutLines side coordinates)).2) :
    ∃ i j : Nat, i < j ∧ j < (cutLines side coordinates).length ∧
      cellRange start finish (cutLines side coordinates) = ((i : Int), (j : Int)) ∧
      (cutLines side coordinates).getD i 0 = start ∧
      (cutLines side coordinates).getD j 0 = finish := by
  have hsorted := cutLines_sorted side coordinates
  have hbounds : ∀ (k : Nat) (hk : k < (cutLines side coordinates).length),
      0 ≤ (cutLines side coordinates)[k] ∧ (cutLines side coordinates)[k] ≤ side :=
    fun k hk => cutLines_mem_bounds hside (List.getElem_mem hk)
  generalize hlines : cutLines side coordinates = lines at hne hsorted hbounds ⊢
  have hzero : (0 : Rat) ∈ lines := by
    rw [← hlines, mem_cutLines_iff]
    exact Or.inl rfl
  -- the first cell of the span shows that neither end lies outside
  obtain ⟨hnonneg, -, hcount⟩ := cellRange_bounds start finish (List.ne_nil_of_mem hzero)
  obtain ⟨k, hk⟩ := Int.eq_ofNat_of_zero_le hnonneg
  have hlt : k + 1 < lines.length := by omega
  obtain ⟨hbefore, hbehind⟩ := (cellRange_spec hsorted start finish
    (List.getElem?_eq_getElem (Nat.lt_of_succ_lt hlt)) (List.getElem?_eq_getElem hlt)).mp
    ⟨by omega, by omega⟩
  have hstart' : start ∈ lines := by
    rw [← hlines, mem_cutLines_iff]
    rcases hfirst.eq_or_lt with hzero | hpos
    · exact Or.inl hzero.symm
    · exact Or.inr (Or.inr ⟨hstart, hpos, hbefore.trans_le (hbounds _ hlt).2⟩)
  have hfinish' : finish ∈ lines := by
    rw [← hlines, mem_cutLines_iff]
    rcases hlast.eq_or_lt with hend | hinner
    · exact Or.inr (Or.inl hend)
    · exact Or.inr
        (Or.inr ⟨hfinish, (hbounds _ (Nat.lt_of_succ_lt hlt)).1.trans_lt hbehind, hinner⟩)
  obtain ⟨i, hi⟩ := List.mem_iff_getElem?.mp hstart'
  obtain ⟨j, hj⟩ := List.mem_iff_getElem?.mp hfinish'
  obtain ⟨hij, hrange⟩ := cellRange_eq hsorted hi hj hne
  refine ⟨i, j, hij, (List.getElem?_eq_some_iff.mp hj).1, hrange, ?_, ?_⟩
  · rw [List.getD_eq_getElem?_getD, hi, Option.getD_some]
  · rw [List.getD_eq_getElem?_getD, hj, Option.getD_some]

end BlockPlan
