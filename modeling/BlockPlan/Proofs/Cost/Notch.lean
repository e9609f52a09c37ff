import BlockPlan.Proofs.Cells.Vacancy
import BlockPlan.Proofs.Cost.Tally
import BlockPlan.Proofs.Sequence.PairwiseSum

/-!
# The notch term as a geometric quantity

The notch term adds up the free cells of a grid whose runs are too short.  An inner point of such a
cell is vacant, and there is too little room around it along one of the axes.  Neither of this
depends on the grid, and so the term does not either: whatever leaves the vacant points of the
outline as they are leaves the term as it is.

* `notchAt`, `notchArea` — the cells that count, and their area.
* `measure_notch` — the value of the term is this area as a share of the outline.
* `Cramped`, **`notchAt_iff`** — the cells that count are those of cramped points.
* **`notchArea_congr`** — the area depends on the vacant points alone.
* `notchArea_mono` — it grows with the thresholds.
* **`measure_notch_geometric`** — what the value of the term is, what it does not depend on, and its
  bounds.
-/

namespace BlockPlan

open Grid

/-! ## Lists over a range -/

lemma sum_map_range (f : Nat → Rat) (n : Nat) :
    ((List.range n).map f).sum = ∑ i ∈ Finset.range n, f i := rfl

lemma sum_filterMap_ite {β : Type} (p : β → Bool) (f : β → Rat) (xs : List β) :
    (xs.filterMap fun x => if p x then some (f x) else none).sum
      = (xs.map fun x => if p x then f x else 0).sum := by
  induction xs with
  | nil => rfl
  | cons x xs ih =>
      rw [List.filterMap_cons, List.map_cons, List.sum_cons, ← ih]
      cases p x
      · exact (zero_add _).symm
      · exact List.sum_cons

namespace Objective

variable {o : Objective Rat} {g : Grid Rat} {blocks : List (Block Rat)}

/-! ## The cells that count -/

/-- Whether a cell is free but its run is too short, along the row or along the column. -/
def notchAt (o : Objective Rat) (g : Grid Rat) (r c : Nat) : Bool :=
  g.freeAt r c && (decide (g.runAt .alongRows r c < o.notchWidth)
    || decide (g.runAt .alongColumns r c < o.notchHeight))

lemma notchAt_iff_short {r c : Nat} : o.notchAt g r c = true ↔
    g.freeAt r c = true ∧ (g.runAt .alongRows r c < o.notchWidth
      ∨ g.runAt .alongColumns r c < o.notchHeight) := by
  rw [notchAt, Bool.and_eq_true, Bool.or_eq_true, decide_eq_true_iff, decide_eq_true_iff]

/-- The area of the cells that count. -/
def notchArea (o : Objective Rat) (blocks : List (Block Rat)) : Rat :=
  (o.grid blocks).areaOf (o.notchAt (o.grid blocks))

/-- The cells that count, row by row. -/
lemma notchAreas_eq (h : g.Rectangular) :
    o.notchAreas g = (List.range (g.yLines.length - 1)).flatMap fun r =>
      (List.range (g.xLines.length - 1)).filterMap fun c =>
        if o.notchAt g r c then some (g.areaAt r c) else none := by
  simp only [notchAreas, heights, widths, gaps_eq, freeCells_eq h, freeRuns_eq h, table,
    List.zip_map', List.flatMap_map, List.filterMap_map, Function.comp_def, notchAt, areaAt,
    mul_comm]
  rfl

/-- The areas of the cells that count come to the area of their kind. -/
lemma sum_notchAreas (h : g.Rectangular) : (o.notchAreas g).sum = g.areaOf (o.notchAt g) := by
  rw [notchAreas_eq h, List.flatMap_def, List.sum_flatten, List.map_map, sum_map_range, areaOf,
    places, Finset.sum_product]
  refine Finset.sum_congr rfl fun r _ => ?_
  rw [Function.comp_apply, sum_filterMap_ite, sum_map_range]

lemma grid_shaped (blocks : List (Block Rat)) : (o.grid blocks).Shaped :=
  (ofLayout_clear _ _ _ _).1.shaped

/-- Without a free cell no cell counts. -/
lemma notchAt_of_hasFree (hnone : g.hasFree = false) (r c : Nat) : o.notchAt g r c = false := by
  rw [notchAt, freeAt_of_hasFree hnone, Bool.false_and]

/-- The value of the term is the area of the cells that count as a share of the outline. -/
lemma measure_notch (h : o.outlineArea ≠ 0) (l : Layout Rat) :
    o.measure l .notch = .ok (o.notchArea l.blocks / o.outlineArea) := by
  rw [measure, notchShare, notchArea]
  cases hsome : (o.grid l.blocks).hasFree with
  | true =>
      simp only [if_true, pairwiseSum_eq, sum_notchAreas (grid_shaped l.blocks).rectangular]
      exact divide_eq_ok h
  | false =>
      rw [areaOf_eq_zero (notchAt_of_hasFree hsome), zero_div]
      rfl

/-! ## Cramped points -/

/-- Points that are vacant but have too little room around them along one of the axes. -/
def Cramped (o : Objective Rat) (boxes : List (Box Rat)) (x y : Rat) : Prop :=
  Vacant boxes x y ∧
    (¬ Roomy (fun x => Vacant boxes x y) o.outlineWidth o.notchWidth x
      ∨ ¬ Roomy (fun y => Vacant boxes x y) o.outlineHeight o.notchHeight y)

lemma Cramped.congr {boxes boxes' : List (Box Rat)}
    (h : ∀ x y, Vacant boxes x y ↔ Vacant boxes' x y) (x y : Rat) :
    o.Cramped boxes x y ↔ o.Cramped boxes' x y := by
  rw [Cramped, Cramped, h, Roomy.congr fun x => h x y, Roomy.congr fun y => h x y]

/-- **A cell counts exactly if its inner points are cramped.** -/
theorem notchAt_iff {boxes boxes' : List (Box Rat)} (hrect : g.Rectangular)
    (h : g.Charts o.outlineWidth o.outlineHeight boxes boxes') {r c : Nat} {x y : Rat}
    (hcell : g.HasCell r c) (hxy : (g.cellBox r c).Interior x y) :
    o.notchAt g r c = true ↔ o.Cramped (boxes ++ boxes') x y := by
  rw [notchAt_iff_short, Cramped, h.vacant_iff hxy hcell]
  refine and_congr_right fun hfree => ?_
  rw [h.roomy_across_iff hxy hrect hfree, h.roomy_up_iff hxy hrect hfree, not_le, not_le]

section Outline

variable (hwidth : 0 < o.outlineWidth) (hheight : 0 < o.outlineHeight)

include hwidth hheight

lemma grid_charts (blocks : List (Block Rat)) :
    (o.grid blocks).Charts o.outlineWidth o.outlineHeight (blocks.map Block.box) o.blockages :=
  ofLayout_charts hwidth hheight _ _

/-- **The area of the cells that count depends on the vacant points alone.** -/
theorem notchArea_congr {blocks blocks' : List (Block Rat)} {blockages : List (Box Rat)}
    (hvacant : ∀ x y, Vacant (blocks'.map Block.box ++ blockages) x y
      ↔ Vacant (blocks.map Block.box ++ o.blockages) x y) :
    { o with blockages := blockages }.notchArea blocks' = o.notchArea blocks := by
  have hcharts := grid_charts hwidth hheight blocks
  have hcharts' : ({ o with blockages := blockages }.grid blocks').Charts
      o.outlineWidth o.outlineHeight (blocks'.map Block.box) blockages :=
    ofLayout_charts hwidth hheight _ _
  refine areaOf_congr hcharts'.columns hcharts'.rows hcharts.columns hcharts.rows
    fun p hp q hq x y hpxy hqxy => Bool.eq_iff_iff.mpr ?_
  calc o.notchAt _ p.1 p.2 = true
      ↔ o.Cramped (blocks'.map Block.box ++ blockages) x y :=
        notchAt_iff (grid_shaped blocks').rectangular hcharts' (mem_places.mp hp) hpxy
    _ ↔ o.Cramped (blocks.map Block.box ++ o.blockages) x y := Cramped.congr hvacant x y
    _ ↔ o.notchAt _ q.1 q.2 = true :=
        (notchAt_iff (grid_shaped blocks).rectangular hcharts (mem_places.mp hq) hqxy).symm

/-- The area grows with the thresholds. -/
lemma notchArea_mono {width height : Rat} (hw : o.notchWidth ≤ width)
    (hh : o.notchHeight ≤ height) :
    o.notchArea blocks
        ≤ { o with notchWidth := width, notchHeight := height }.notchArea blocks := by
  have hcharts := grid_charts hwidth hheight blocks
  refine areaOf_mono hcharts.columns hcharts.rows fun r c _ hnotch => ?_
  rw [notchAt_iff_short] at hnotch ⊢
  exact hnotch.imp_right (Or.imp hw.trans_lt' hh.trans_lt')

/-- No cell counts that is not free. -/
lemma notchArea_le_free : o.notchArea blocks ≤ (o.grid blocks).areaOf (o.grid blocks).freeAt :=
  have hcharts := grid_charts hwidth hheight blocks
  areaOf_mono hcharts.columns hcharts.rows fun _ _ _ hnotch => (notchAt_iff_short.mp hnotch).1

end Outline

/-- With thresholds of zero no cell counts. -/
lemma notchArea_eq_zero (hw : o.notchWidth = 0) (hh : o.notchHeight = 0) :
    o.notchArea blocks = 0 := by
  have hnonneg := fun direction r c =>
    (grid_shaped (o := o) blocks).runAt_nonneg (r := r) (c := c) direction
  refine areaOf_eq_zero fun r c => ?_
  by_contra hnotch
  rw [Bool.not_eq_false, notchAt_iff_short, hw, hh] at hnotch
  obtain ⟨hfree, hshort | hshort⟩ := hnotch
  · exact hshort.not_ge (hnonneg .alongRows r c hfree)
  · exact hshort.not_ge (hnonneg .alongColumns r c hfree)

/-! ## Boxes without effect -/

lemma vacant_perm {boxes boxes' : List (Box Rat)} (h : boxes'.Perm boxes) (x y : Rat) :
    Vacant boxes' x y ↔ Vacant boxes x y :=
  forall_congr' fun b => by rw [h.mem_iff]

/-- A rectangle without width or without height has no inner points. -/
lemma not_interior_of_flat {r : Rect Rat} (hflat : r.width = 0 ∨ r.height = 0) (x y : Rat) :
    ¬ r.box.Interior x y := by
  rintro ⟨hleft, hright, hbelow, habove⟩
  rcases hflat with hzero | hzero
  · exact absurd (hleft.trans hright) (by simp [Rect.box, Rect.xMax, hzero])
  · exact absurd (hbelow.trans habove) (by simp [Rect.box, Rect.yMax, hzero])

/-- Rectangles without area and the order of boxes leave the vacant points as they are. -/
lemma vacant_flat {blocks blocks' : List (Block Rat)} {flat : List (Rect Rat)}
    {boxes boxes' : List (Box Rat)} (hblocks : blocks'.Perm blocks)
    (hflat : ∀ r ∈ flat, r.width = 0 ∨ r.height = 0)
    (hboxes : boxes'.Perm (flat.map Rect.box ++ boxes)) (x y : Rat) :
    Vacant (blocks'.map Block.box ++ boxes') x y ↔ Vacant (blocks.map Block.box ++ boxes) x y := by
  rw [vacant_perm ((hblocks.map Block.box).append hboxes)]
  simp only [Vacant, List.forall_mem_append]
  refine and_congr_right fun _ => and_iff_right ?_
  intro b hb
  obtain ⟨r, hr, rfl⟩ := List.mem_map.mp hb
  exact not_interior_of_flat (hflat r hr) x y

/-! ## The value of the term -/

/-- **The notch term is a geometric quantity.**  Its value is the share that the cells of cramped
points have in the outline.  It does not change if blocks or blockages change places or if blockages
without area are added; it does not fall if a threshold grows, is zero if both thresholds are, and
lies between zero and the share of the free cells, which is at most one. -/
theorem measure_notch_geometric (hwidth : 0 < o.outlineWidth) (hheight : 0 < o.outlineHeight)
    (l : Layout Rat) :
    ∃ value, o.measure l .notch = .ok value ∧
      value = (o.grid l.blocks).areaOf (o.notchAt (o.grid l.blocks)) / o.outlineArea ∧
      (∀ r c, (o.grid l.blocks).HasCell r c → ∀ x y, ((o.grid l.blocks).cellBox r c).Interior x y →
        (o.notchAt (o.grid l.blocks) r c = true
          ↔ o.Cramped (l.blocks.map Block.box ++ o.blockages) x y)) ∧
      (∀ (l' : Layout Rat) (flat : List (Rect Rat)) (blockages : List (Box Rat)),
        l'.blocks.Perm l.blocks → (∀ r ∈ flat, r.width = 0 ∨ r.height = 0) →
        blockages.Perm (flat.map Rect.box ++ o.blockages) →
        { o with blockages := blockages }.measure l' .notch = .ok value) ∧
      (∀ width height, o.notchWidth ≤ width → o.notchHeight ≤ height →
        ∃ larger, { o with notchWidth := width, notchHeight := height }.measure l .notch
            = .ok larger ∧
          value ≤ larger) ∧
      (o.notchWidth = 0 → o.notchHeight = 0 → value = 0) ∧
      0 ≤ value ∧
      value ≤ (o.grid l.blocks).areaOf (o.grid l.blocks).freeAt / o.outlineArea ∧
      (o.grid l.blocks).areaOf (o.grid l.blocks).freeAt / o.outlineArea ≤ 1 := by
  have hcharts := grid_charts hwidth hheight l.blocks
  have harea : 0 < o.outlineArea := mul_pos hwidth hheight
  refine ⟨_, measure_notch harea.ne' l, rfl, ?_, ?_, ?_, ?_, ?_, ?_, ?_⟩
  · intro r c hcell x y
    exact notchAt_iff (grid_shaped l.blocks).rectangular hcharts hcell
  · intro l' flat blockages hblocks hflat hblockages
    have hcongr := notchArea_congr hwidth hheight (vacant_flat hblocks hflat hblockages)
    rw [measure_notch (o := { o with blockages := blockages }) harea.ne', hcongr]
    rfl
  · intro width height hw hh
    let o' : Objective Rat := { o with notchWidth := width, notchHeight := height }
    refine ⟨_, measure_notch (o := o') harea.ne' l, ?_⟩
    exact div_le_div_of_nonneg_right (notchArea_mono hwidth hheight hw hh) harea.le
  · intro hw hh
    rw [notchArea_eq_zero hw hh, zero_div]
  · exact div_nonneg (areaOf_nonneg hcharts.columns hcharts.rows _) harea.le
  · exact div_le_div_of_nonneg_right (notchArea_le_free hwidth hheight) harea.le
  · exact (div_le_one harea).mpr (areaOf_le hcharts.columns hcharts.rows _)

/-- An outline in which free runs along rows are too short below twenty. -/
def corridor : Objective Rat :=
  { outlineWidth := 100
    outlineHeight := 100
    nets := []
    terminals := []
    guides := []
    fences := []
    blockages := []
    weights := .const 1
    notchWidth := 20
    notchHeight := 0 }

/-- Two blocks that leave a corridor of ten between them. -/
def besideCorridor : Layout Rat :=
  .ofBlocks [⟨"left", .hard 45 100 [.r0] .r0, 0, 0, 45, 100, false⟩,
    ⟨"right", .hard 45 100 [.r0] .r0, 55, 0, 45, 100, false⟩]

/-- The corridor is a tenth of the outline, also with a blockage without width along its middle. -/
theorem measure_notch_geometric_corridor :
    (0 < corridor.outlineWidth ∧ 0 < corridor.outlineHeight) ∧
      corridor.measure besideCorridor .notch = .ok (1 / 10) ∧
      { corridor with blockages := [(⟨50, 0, 0, 100⟩ : Rect Rat).box] }.measure
        besideCorridor .notch
        = .ok (1 / 10) := by
  have hsides : 0 < corridor.outlineWidth ∧ 0 < corridor.outlineHeight := by decide +kernel
  have hlines : Grid.ofBoxes (100 : Rat) 100 (besideCorridor.blocks.map Block.box ++ [])
      = ⟨[0, 45, 55, 100], [0, 100], [[.free, .free, .free]]⟩ := by cbv
  have htenth : corridor.measure besideCorridor .notch = .ok (1 / 10) := by
    rw [measure, notchShare, Objective.grid, Grid.ofLayout, corridor, hlines]
    decide +kernel
  obtain ⟨value, hvalue, -, -, hsame, -⟩ := measure_notch_geometric hsides.1 hsides.2 besideCorridor
  obtain rfl : value = 1 / 10 := Except.ok.inj (hvalue.symm.trans htenth)
  have hflat : ∀ r ∈ [(⟨50, 0, 0, 100⟩ : Rect Rat)], r.width = 0 ∨ r.height = 0 := by
    intro r hr
    rw [List.mem_singleton.mp hr]
    exact Or.inl rfl
  refine ⟨hsides, htenth, ?_⟩
  exact hsame besideCorridor _ _ (List.Perm.refl _) hflat (List.Perm.refl _)

end Objective

end BlockPlan
