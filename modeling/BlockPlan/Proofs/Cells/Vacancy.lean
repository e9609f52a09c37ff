import BlockPlan.Proofs.Cells.FreeRuns
import BlockPlan.Proofs.Cells.Picture

/-!
# Vacant points

What the cells and the runs of a grid tell about an outline can be said without the grid.  A cell is
free if its inner points lie in no box, and its run is as long as the longest span of such points
along the row or the column. The area of a kind of cells does not depend on the grid either, as long
as cells that overlap are of one kind.

* `Vacant`, `Roomy` — points inside no box, and points with room around them along an axis.
* **`roomy_iff_of_isRun`** — there is as much room around a point as its run is long.
* `Charts.vacant_iff`, **`Charts.roomy_across_iff`**, **`Charts.roomy_up_iff`** — the same on the
  grid of a layout.
* `areaOf`, **`areaOf_congr`** — the area of a kind of cells, and its value on two grids of the same
  outline.
-/

namespace BlockPlan

/-! ## Points and room around them -/

/-- A point that lies inside no box. -/
def Vacant (boxes : List (Box Rat)) (x y : Rat) : Prop := ∀ b ∈ boxes, ¬ b.Interior x y

/-- Around a point of an axis, inside the outline, there is a span of some length with clear points
alone. -/
def Roomy (clear : Rat → Prop) (side length x : Rat) : Prop :=
  ∃ lo hi, 0 ≤ lo ∧ lo < x ∧ x < hi ∧ hi ≤ side ∧ length ≤ hi - lo ∧ ∀ x', lo < x' →
    x' < hi → clear x'

lemma Roomy.congr {clear clear' : Rat → Prop} (h : ∀ x, clear x ↔ clear' x) {side length x : Rat} :
    Roomy clear side length x ↔ Roomy clear' side length x := by
  simp only [Roomy, h]

/-- A point inside a box has others in front of it. -/
lemma exists_not_vacant_right {boxes : List (Box Rat)} {x y z : Rat} (h : ¬ Vacant boxes x y)
    (hz : x < z) : ∃ x', x < x' ∧ x' < z ∧ ¬ Vacant boxes x' y := by
  simp only [Vacant, not_forall, not_not] at h ⊢
  obtain ⟨b, hb, hin⟩ := h
  obtain ⟨x', hx, hx'⟩ := exists_between (lt_min hz hin.right)
  exact ⟨x', hx, hx'.trans_le (min_le_left _ _), b, hb, hin.left.trans hx,
    hx'.trans_le (min_le_right _ _), hin.below, hin.above⟩

/-- A point inside a box has others above it. -/
lemma exists_not_vacant_up {boxes : List (Box Rat)} {x y z : Rat} (h : ¬ Vacant boxes x y)
    (hz : y < z) : ∃ y', y < y' ∧ y' < z ∧ ¬ Vacant boxes x y' := by
  simp only [Vacant, not_forall, not_not] at h ⊢
  obtain ⟨b, hb, hin⟩ := h
  obtain ⟨y', hy, hy'⟩ := exists_between (lt_min hz hin.above)
  exact ⟨y', hy, hy'.trans_le (min_le_left _ _), b, hb, hin.left, hin.right, hin.below.trans hy,
    hy'.trans_le (min_le_right _ _)⟩

/-! ## Room and runs -/

section Axis

variable {side : Rat} {lines : List Rat} {free : Nat → Bool} {clear : Rat → Prop} {c s e : Nat}

variable (hlines : Divides side lines) (hout : ∀ k, lines.length - 1 ≤ k → free k = false)
  (hcells : ∀ k, k + 1 < lines.length → ∀ x, lines.getD k 0 < x → x < lines.getD (k + 1) 0 →
    (clear x ↔ free k = true)) (hrun : IsRun free c s e)

include hlines hcells hrun

/-- A span of clear points does not reach into the cell in front of a run. -/
lemma IsRun.start_le_of_clear {lo hi : Rat} (hend : e < lines.length) (hlo : 0 ≤ lo)
    (hhi : lines.getD s 0 < hi) (hclear : ∀ x, lo < x → x < hi → clear x) :
    lines.getD s 0 ≤ lo := by
  by_contra hlt
  rw [not_le] at hlt
  rcases Nat.eq_zero_or_pos s with rfl | hpos
  · rw [hlines.getD_zero] at hlt
    exact hlt.not_ge hlo
  · have hbefore := hrun.before.resolve_left hpos.ne'
    obtain ⟨k, rfl⟩ : ∃ k, s = k + 1 := ⟨s - 1, by omega⟩
    have hlast : k + 1 < lines.length := (hrun.start_le.trans hrun.lt_end.le).trans_lt hend
    -- the cell in front of the run would have a clear point
    obtain ⟨x, hlow, hhigh⟩ :=
      exists_between (max_lt hlt (Grid.line_strictMono hlines.sorted k.lt_succ_self hlast))
    have hfree := (hcells k hlast x ((le_max_right _ _).trans_lt hlow) hhigh).mp
      (hclear x ((le_max_left _ _).trans_lt hlow) (hhigh.trans hhi))
    rw [Nat.add_sub_cancel, hfree] at hbefore
    cases hbefore

/-- A span of clear points does not reach into the cell behind a run. -/
lemma IsRun.le_end_of_clear {lo hi : Rat} (hend : e < lines.length) (hhi : hi ≤ side)
    (hlo : lo < lines.getD e 0) (hclear : ∀ x, lo < x → x < hi → clear x) :
    hi ≤ lines.getD e 0 := by
  by_contra hlt
  rw [not_le] at hlt
  rcases Nat.lt_or_ge (e + 1) lines.length with hinner | houter
  · obtain ⟨x, hlow, hhigh⟩ :=
      exists_between (lt_min hlt (Grid.line_strictMono hlines.sorted e.lt_succ_self hinner))
    have hfree := (hcells e hinner x hlow (hhigh.trans_le (min_le_right _ _))).mp
      (hclear x (hlo.trans hlow) (hhigh.trans_le (min_le_left _ _)))
    rw [hrun.behind] at hfree
    cases hfree
  · rw [show e = lines.length - 1 by omega, hlines.getD_last] at hlt
    exact hlt.not_ge hhi

omit hlines in
/-- All points of a run are clear, those on its lines too. -/
lemma IsRun.clear_inside (hend : e < lines.length)
    (hright : ∀ x z, ¬ clear x → x < z → ∃ x', x < x' ∧ x' < z ∧ ¬ clear x') {x : Rat}
    (hlow : lines.getD s 0 < x) (hhigh : x < lines.getD e 0) : clear x := by
  by_contra hblocked
  obtain ⟨k, hsk, hke, hk, hk'⟩ :=
    exists_cell_of_between (hrun.start_le.trans hrun.lt_end.le) hlow.le hhigh
  -- the point may lie on a line; a little further on it is inside the free cell
  obtain ⟨x', hbehind, hbefore, hnot⟩ := hright x _ hblocked hk'
  exact hnot ((hcells k (by omega) x' (hk.trans_lt hbehind) hbefore).mpr (hrun.inside k hsk hke))

include hout

/-- **There is as much room around a point as its run is long**, if the cells of an axis are free
where its points are clear, and points that are not clear have others in front of them. -/
theorem roomy_iff_of_isRun (hright : ∀ x z, ¬ clear x → x < z → ∃ x', x < x' ∧ x' < z ∧ ¬ clear x')
    {x : Rat} (hleft : lines.getD c 0 < x) (hx : x < lines.getD (c + 1) 0) (length : Rat) :
    Roomy clear side length x ↔ length ≤ lines.getD e 0 - lines.getD s 0 := by
  have hmono : ∀ {i j : Nat}, i ≤ j → j < lines.length → lines.getD i 0 ≤ lines.getD j 0 :=
    fun hij hj => Grid.line_mono hlines.sorted hij hj
  have hsc := hrun.start_le
  have hce := hrun.lt_end
  have hend := hrun.end_le hout
  have hlow : lines.getD s 0 < x := (hmono hsc (by omega)).trans_lt hleft
  have hhigh : x < lines.getD e 0 := hx.trans_le (hmono hce (by omega))
  constructor
  · rintro ⟨lo, hi, hlo, hlox, hxhi, hhi, hlength, hclear⟩
    have hfirst := hrun.start_le_of_clear hlines hcells (by omega) hlo (hlow.trans hxhi) hclear
    have hlast := hrun.le_end_of_clear hlines hcells (by omega) hhi (hlox.trans hhigh) hclear
    linarith
  · intro hlength
    have hfirst : 0 ≤ lines.getD s 0 := hlines.getD_zero.ge.trans (hmono s.zero_le (by omega))
    have hlast : lines.getD e 0 ≤ side := (hmono hend (by omega)).trans hlines.getD_last.le
    refine ⟨lines.getD s 0, lines.getD e 0, hfirst, hlow, hhigh, hlast, hlength, ?_⟩
    intro x'
    exact hrun.clear_inside hcells (by omega) hright

end Axis

/-! ## Vacant cells -/

namespace Grid

variable {g g' : Grid Rat} {width height : Rat} {blocks blockages : List (Box Rat)} {r c : Nat}
    {x y : Rat}

section Charts

variable (h : g.Charts width height blocks blockages) (hxy : (g.cellBox r c).Interior x y)

include h hxy

/-- **A cell is free exactly if its inner points are vacant.** -/
theorem Charts.vacant_iff (hcell : g.HasCell r c) :
    Vacant (blocks ++ blockages) x y ↔ g.freeAt r c = true := by
  rw [freeAt_iff, h.occupied, Occupant.free_iff, and_iff_right hcell]
  refine forall₂_congr fun b hb => not_congr ⟨fun hin => ?_, fun hcovers => hcovers.interior hxy⟩
  refine (h.parted b hb r c hcell).resolve_right fun hout => hout x y hxy ?_
  exact ⟨hin.left.le, hin.right.le, hin.below.le, hin.above.le⟩

/-- **Across, there is as much room around a point of a free cell as its run is long.** -/
theorem Charts.roomy_across_iff (hrect : g.Rectangular) (hfree : g.freeAt r c = true)
    (length : Rat) :
    Roomy (fun x => Vacant (blocks ++ blockages) x y) width length x
      ↔ length ≤ g.runAt .alongRows r c := by
  obtain ⟨hr, -⟩ := hrect.lt_of_freeAt hfree
  have hout : ∀ k, g.xLines.length - 1 ≤ k → g.freeAt r k = false :=
    fun k hk => hrect.freeAt_eq_false (Or.inr hk)
  obtain ⟨s, e, hrun⟩ := exists_isRun hfree hout
  rw [runAt_alongRows hrect hrun]
  refine roomy_iff_of_isRun h.columns hout (fun k hk x' hleft hright => ?_) hrun
    (fun x' z => exists_not_vacant_right) hxy.left hxy.right length
  exact h.vacant_iff (r := r) (c := k) ⟨hleft, hright, hxy.below, hxy.above⟩ ⟨by omega, hk⟩

/-- **Upwards, there is as much room around a point of a free cell as its run is long.** -/
theorem Charts.roomy_up_iff (hrect : g.Rectangular) (hfree : g.freeAt r c = true) (length : Rat) :
    Roomy (fun y => Vacant (blocks ++ blockages) x y) height length y
      ↔ length ≤ g.runAt .alongColumns r c := by
  obtain ⟨-, hc⟩ := hrect.lt_of_freeAt hfree
  have hout : ∀ k, g.yLines.length - 1 ≤ k → g.freeAt k c = false :=
    fun k hk => hrect.freeAt_eq_false (Or.inl hk)
  obtain ⟨s, e, hrun⟩ : ∃ s e, IsRun (fun k => g.freeAt k c) r s e := exists_isRun hfree hout
  rw [runAt_alongColumns hrect hrun]
  refine roomy_iff_of_isRun h.rows hout (fun k hk y' hbelow habove => ?_) hrun
    (fun y' z => exists_not_vacant_up) hxy.below hxy.above length
  exact h.vacant_iff (r := k) (c := c) ⟨hxy.left, hxy.right, hbelow, habove⟩ ⟨hk, by omega⟩

end Charts

/-! ## Sums over cells -/

/-- The rows and columns that have cells. -/
def places (g : Grid Rat) : Finset (Nat × Nat) :=
  Finset.range (g.yLines.length - 1) ×ˢ Finset.range (g.xLines.length - 1)

lemma mem_places {p : Nat × Nat} : p ∈ g.places ↔ g.HasCell p.1 p.2 := by
  rw [places, Finset.mem_product, Finset.mem_range, Finset.mem_range, HasCell]
  omega

/-- Boxes that share an area have an inner point in common. -/
lemma exists_interior {a b : Box Rat} (h : a.overlap b ≠ 0) :
    ∃ x y, a.Interior x y ∧ b.Interior x y := by
  have hspan : ∀ {lo hi lo' hi' : Rat}, Box.shared lo hi lo' hi' ≠ 0 → max lo lo' < min hi hi' := by
    intro lo hi lo' hi' hne
    by_contra hle
    exact hne (max_eq_left (sub_nonpos.mpr (not_lt.mp hle)))
  rw [Box.overlap_eq] at h
  obtain ⟨hx, hy⟩ := mul_ne_zero_iff.mp h
  obtain ⟨x, hx, hx'⟩ := exists_between (hspan hx)
  obtain ⟨y, hy, hy'⟩ := exists_between (hspan hy)
  rw [max_lt_iff] at hx hy
  rw [lt_min_iff] at hx' hy'
  exact ⟨x, y, ⟨hx.1, hx'.1, hy.1, hy'.1⟩, hx.2, hx'.2, hy.2, hy'.2⟩

/-- What lies inside a side shares all of it with the cells of the side. -/
lemma sum_shared_side {side : Rat} {lines : List Rat} (hlines : Divides side lines) {lo hi : Rat}
    (hlo : 0 ≤ lo) (hle : lo ≤ hi) (hhi : hi ≤ side) :
    ∑ k ∈ Finset.range (lines.length - 1), Box.shared lo hi (lines.getD k 0) (lines.getD (k + 1) 0)
      = hi - lo := by
  have hne : lines.length - 1 < lines.length := by
    have := List.length_pos_of_mem (List.mem_of_head? hlines.head?)
    omega
  simp only [Box.shared_comm lo hi]
  rw [sum_shared hlines.sorted lo hi hne, hlines.getD_zero, hlines.getD_last, Box.shared_comm,
    Box.shared_eq_of_inside hlo hle hhi]

/-- The lines around a cell lie in the outline. -/
lemma line_bounds {side : Rat} {lines : List Rat} (hlines : Divides side lines) {k : Nat}
    (hk : k + 1 < lines.length) : 0 ≤ lines.getD k 0 ∧ lines.getD k 0 ≤ lines.getD (k + 1) 0 ∧
      lines.getD (k + 1) 0 ≤ side := by
  refine ⟨?_, line_mono hlines.sorted k.le_succ hk, ?_⟩
  · exact hlines.getD_zero.ge.trans (line_mono hlines.sorted k.zero_le (by omega))
  · exact (line_mono hlines.sorted (Nat.le_sub_one_of_lt hk) (by omega)).trans hlines.getD_last.le

/-- All cells of an outline take up all of it. -/
lemma sum_areaAt (hx : Divides width g.xLines) (hy : Divides height g.yLines) :
    ∑ p ∈ g.places, g.areaAt p.1 p.2 = width * height := by
  have hgaps : ∀ {side : Rat} {lines : List Rat}, Divides side lines →
      ∑ k ∈ Finset.range (lines.length - 1), (lines.getD (k + 1) 0 - lines.getD k 0) = side := by
    intro side lines hlines
    rw [Finset.sum_range_sub (fun k => lines.getD k 0), hlines.getD_zero,
      hlines.getD_last, sub_zero]
  rw [← hgaps hx, ← hgaps hy, Finset.sum_mul_sum, places, Finset.sum_product_right]
  rfl

lemma areaAt_nonneg (hx : Divides width g.xLines) (hy : Divides height g.yLines)
    (hcell : g.HasCell r c) : 0 ≤ g.areaAt r c :=
  mul_nonneg (sub_nonneg.mpr (line_bounds hx hcell.2).2.1)
    (sub_nonneg.mpr (line_bounds hy hcell.1).2.1)

/-- The area of the cells of some kind. -/
def areaOf (g : Grid Rat) (kind : Nat → Nat → Bool) : Rat :=
  ∑ p ∈ g.places, if kind p.1 p.2 then g.areaAt p.1 p.2 else 0

section Kinds

variable (hx : Divides width g.xLines) (hy : Divides height g.yLines)
    {kind kind' : Nat → Nat → Bool}

include hx hy

/-- The more cells are of a kind, the larger is their area. -/
lemma areaOf_mono (himp : ∀ r c, g.HasCell r c → kind r c = true → kind' r c = true) :
    g.areaOf kind ≤ g.areaOf kind' := by
  refine Finset.sum_le_sum fun p hp => ?_
  have hcell := mem_places.mp hp
  have hnonneg := areaAt_nonneg hx hy hcell
  by_cases hkind : kind p.1 p.2 = true
  · rw [if_pos hkind, if_pos (himp _ _ hcell hkind)]
  · rw [if_neg hkind]
    split_ifs
    exacts [hnonneg, le_rfl]

lemma areaOf_nonneg (kind : Nat → Nat → Bool) : 0 ≤ g.areaOf kind := by
  refine Finset.sum_nonneg fun p hp => ?_
  split_ifs
  exacts [areaAt_nonneg hx hy (mem_places.mp hp), le_rfl]

/-- No kind of cells takes up more than the outline. -/
lemma areaOf_le (kind : Nat → Nat → Bool) : g.areaOf kind ≤ width * height := by
  rw [← sum_areaAt hx hy]
  refine Finset.sum_le_sum fun p hp => ?_
  split_ifs
  exacts [le_rfl, areaAt_nonneg hx hy (mem_places.mp hp)]

end Kinds

lemma areaOf_eq_zero {kind : Nat → Nat → Bool} (hnone : ∀ r c, kind r c = false) :
    g.areaOf kind = 0 :=
  Finset.sum_eq_zero fun p _ => by rw [hnone, if_neg Bool.false_ne_true]

section Sums

variable (hx : Divides width g.xLines) (hy : Divides height g.yLines)
    (hx' : Divides width g'.xLines) (hy' : Divides height g'.yLines)

include hx hy hx' hy'

/-- The cells of another grid of the outline share all of a cell. -/
lemma areaAt_eq_sum (hcell : g.HasCell r c) :
    g.areaAt r c = ∑ q ∈ g'.places, (g.cellBox r c).overlap (g'.cellBox q.1 q.2) := by
  obtain ⟨hleft, hwide, hright⟩ := line_bounds hx hcell.2
  obtain ⟨hbelow, hhigh, habove⟩ := line_bounds hy hcell.1
  simp only [Box.overlap_eq, cellBox, regionBox]
  rw [areaAt, ← sum_shared_side hx' hleft hwide hright, ← sum_shared_side hy' hbelow hhigh habove,
    Finset.sum_mul_sum, places, Finset.sum_product_right]

/-- **Kinds of cells have the same area on two grids of an outline if cells that overlap are both of
the kind or neither of them is.** -/
theorem areaOf_congr {kind kind' : Nat → Nat → Bool}
    (hsame : ∀ p ∈ g.places, ∀ q ∈ g'.places, ∀ x y, (g.cellBox p.1 p.2).Interior x y →
      (g'.cellBox q.1 q.2).Interior x y → kind p.1 p.2 = kind' q.1 q.2) :
    g.areaOf kind = g'.areaOf kind' := by
  calc g.areaOf kind
      = ∑ p ∈ g.places, ∑ q ∈ g'.places,
          if kind p.1 p.2 then (g.cellBox p.1 p.2).overlap (g'.cellBox q.1 q.2) else 0 := by
        refine Finset.sum_congr rfl fun p hp => ?_
        split_ifs
        exacts [areaAt_eq_sum hx hy hx' hy' (mem_places.mp hp), Finset.sum_const_zero.symm]
    _ = ∑ p ∈ g.places, ∑ q ∈ g'.places,
          if kind' q.1 q.2 then (g'.cellBox q.1 q.2).overlap (g.cellBox p.1 p.2) else 0 := by
        refine Finset.sum_congr rfl fun p hp => Finset.sum_congr rfl fun q hq => ?_
        rw [Box.overlap_comm]
        -- cells that share an area have an inner point in common, where both are of one kind
        by_cases hzero : (g'.cellBox q.1 q.2).overlap (g.cellBox p.1 p.2) = 0
        · rw [hzero, ite_self, ite_self]
        · obtain ⟨x, y, hq', hp'⟩ := exists_interior hzero
          rw [hsame p hp q hq x y hp' hq']
    _ = ∑ q ∈ g'.places, ∑ p ∈ g.places,
          if kind' q.1 q.2 then (g'.cellBox q.1 q.2).overlap (g.cellBox p.1 p.2) else 0 :=
        Finset.sum_comm
    _ = g'.areaOf kind' := by
        refine Finset.sum_congr rfl fun q hq => ?_
        split_ifs
        exacts [(areaAt_eq_sum hx' hy' hx hy (mem_places.mp hq)).symm, Finset.sum_const_zero]

end Sums

end Grid

end BlockPlan
