import BlockPlan.Proofs.Cells.Vacancy
import BlockPlan.Proofs.Packing.Tightest

/-!
# The area of a packing

Boxes that share no area with each other take different cells of the grid that they cut out of a
frame, so that together they have no more area than the frame has.  The blocks of a packed layout
are such boxes, and its bounding box is a frame around them: however the sequences are chosen, a
packing is no smaller than its blocks.

* `Grid.sum_overlap_cellBox` — the cells of an outline share with a box what the outline shares with
  it.
* **`sum_overlap_le`** — boxes without overlaps have no more area in a frame than the frame.
* **`Layout.Respects.sum_area_le`** — blocks that respect a pair have no more area than their
  bounding box.
* **`Layout.setSequences_pack_area`** — a packing is no smaller than its blocks, and its share of
  the outline is no less than the utilization.
-/

namespace BlockPlan

/-! ## Boxes without overlaps -/

namespace Grid

variable {g : Grid Rat} {width height : Rat} {r c : Nat}

/-- **The cells of an outline share with a box what the outline shares with it.** -/
theorem sum_overlap_cellBox (hx : Divides width g.xLines) (hy : Divides height g.yLines)
    (b : Box Rat) :
    ∑ p ∈ g.places, (g.cellBox p.1 p.2).overlap b
        = (⟨0, 0, width, height⟩ : Box Rat).overlap b := by
  have haxis : ∀ {side : Rat} {lines : List Rat}, Divides side lines → ∀ lo hi : Rat,
      Box.shared 0 side lo hi
        = ∑ k ∈ Finset.range (lines.length - 1),
          Box.shared (lines.getD k 0) (lines.getD (k + 1) 0) lo hi := by
    intro side lines hlines lo hi
    have hpos := List.length_pos_of_mem (List.mem_of_head? hlines.head?)
    rw [sum_shared hlines.sorted lo hi (by omega), hlines.getD_zero, hlines.getD_last]
  simp only [Box.overlap_eq, cellBox, regionBox]
  rw [haxis hx, haxis hy, Finset.sum_mul_sum, places, Finset.sum_product_right]

/-- Boxes without overlaps share no more with a cell than its area, if no edge of
theirs crosses it. -/
lemma sum_overlap_cellBox_le {boxes : List (Box Rat)} (hx : Divides width g.xLines)
    (hy : Divides height g.yLines) (hcell : g.HasCell r c)
    (hparted : ∀ b ∈ boxes, b.Covers (g.cellBox r c) ∨
      ∀ x y, (g.cellBox r c).Interior x y → ¬ b.Contains x y)
    (hapart : boxes.Pairwise fun a b => a.overlap b = 0) :
    (boxes.map (g.cellBox r c).overlap).sum ≤ g.areaAt r c := by
  induction boxes with
  | nil => exact areaAt_nonneg hx hy hcell
  | cons b rest ih =>
      rw [List.pairwise_cons] at hapart
      rw [List.map_cons, List.sum_cons]
      rcases hparted b List.mem_cons_self with hcovers | hout
      · -- what is inside this box shares nothing with the others
        have hothers : (rest.map (g.cellBox r c).overlap).sum = 0 := by
          refine List.sum_eq_zero fun area harea => ?_
          obtain ⟨b', hb', rfl⟩ := List.mem_map.mp harea
          exact ((hcovers.overlap_le b').trans (hapart.1 b' hb').le).antisymm
            (Box.overlap_nonneg _ _)
        rw [hothers, add_zero, Box.overlap_eq]
        obtain ⟨-, hwide, -⟩ := line_bounds hx hcell.2
        obtain ⟨-, hhigh, -⟩ := line_bounds hy hcell.1
        exact mul_le_mul (Box.shared_le hwide _ _) (Box.shared_le hhigh _ _)
          (Box.shared_nonneg _ _ _ _)
          (sub_nonneg.mpr hwide)
      · have hnone : (g.cellBox r c).overlap b = 0 := by
          by_contra hne
          obtain ⟨x, y, hxy, hin⟩ := exists_interior hne
          exact hout x y hxy ⟨hin.left.le, hin.right.le, hin.below.le, hin.above.le⟩
        rw [hnone, zero_add]
        exact ih (fun b' hb' => hparted b' (List.mem_cons_of_mem _ hb')) hapart.2

end Grid

/-- **Boxes without overlaps have no more area in a frame than the frame.** -/
theorem sum_overlap_le {width height : Rat} {boxes : List (Box Rat)} (hwidth : 0 ≤ width)
    (hheight : 0 ≤ height) (hapart : boxes.Pairwise fun a b => a.overlap b = 0) :
    (boxes.map fun b => (⟨0, 0, width, height⟩ : Box Rat).overlap b).sum ≤ width * height := by
  rcases hwidth.eq_or_lt with rfl | hwidth
  · simp [Box.overlap_eq, Box.shared_eq_zero_of_ge]
  rcases hheight.eq_or_lt with rfl | hheight
  · simp [Box.overlap_eq, Box.shared_eq_zero_of_ge]
  -- the grid that the boxes cut out of the frame
  have hcharts := Grid.ofLayout_charts hwidth hheight boxes []
  have hparted := hcharts.parted
  generalize Grid.ofLayout width height boxes [] = g at hcharts hparted
  rw [List.append_nil] at hparted
  calc (boxes.map fun b => (⟨0, 0, width, height⟩ : Box Rat).overlap b).sum
      = (boxes.map fun b => ∑ p ∈ g.places, (g.cellBox p.1 p.2).overlap b).sum := by
        simp only [Grid.sum_overlap_cellBox hcharts.columns hcharts.rows]
    _ = ∑ p ∈ g.places, (boxes.map (g.cellBox p.1 p.2).overlap).sum := by
        have hswap := Multiset.sum_map_sum (m := (boxes : Multiset (Box Rat))) (s := g.places)
          (f := fun b p => (g.cellBox p.1 p.2).overlap b)
        simpa only [Multiset.map_coe, Multiset.sum_coe] using hswap
    _ ≤ ∑ p ∈ g.places, g.areaAt p.1 p.2 := by
        refine Finset.sum_le_sum fun p hp => ?_
        have hcell := Grid.mem_places.mp hp
        exact Grid.sum_overlap_cellBox_le hcharts.columns hcharts.rows hcell
          (fun b hb => hparted b hb p.1 p.2 hcell) hapart
    _ = width * height := Grid.sum_areaAt hcharts.columns hcharts.rows

/-! ## Packings -/

namespace Layout

/-- **Blocks that respect a pair have no more area together than their bounding box.** -/
theorem Respects.sum_area_le {l : Layout Rat} {p : SequencePair} (h : Respects p l.blocks)
    (hp : p.Coherent l.size) (hsides : ∀ b ∈ l.blocks, 0 ≤ b.width ∧ 0 ≤ b.height) :
    (l.blocks.map Block.area).sum ≤ l.boundingSides.1 * l.boundingSides.2 := by
  by_cases hnone : l.blocks = []
  · simp [boundingSides, hnone]
  obtain ⟨c, hc⟩ := List.exists_mem_of_ne_nil _ hnone
  have hfront : ∀ b ∈ l.blocks, 0 ≤ b.x ∧ b.x ≤ b.xMax ∧ 0 ≤ b.y ∧ b.y ≤ b.yMax := fun b hb =>
    ⟨h.x_nonneg b hb, le_add_of_nonneg_right (hsides b hb).1, h.y_nonneg b hb,
      le_add_of_nonneg_right (hsides b hb).2⟩
  -- every block lies in the bounding box, so that it shares all of its area with it
  have hinside : l.blocks.map Block.area = (l.blocks.map Block.box).map fun b =>
      (⟨0, 0, l.boundingSides.1, l.boundingSides.2⟩ : Box Rat).overlap b := by
    rw [List.map_map]
    refine List.map_congr_left fun b hb => ?_
    obtain ⟨hx, hwide, hy, hhigh⟩ := hfront b hb
    obtain ⟨hright, habove⟩ := le_boundingSides hb
    rw [Function.comp_apply, Box.overlap_comm, Box.overlap_eq, Block.box,
      Box.shared_eq_of_inside hx hwide hright, Box.shared_eq_of_inside hy hhigh habove, Block.area,
      Block.xMax, Block.yMax, add_sub_cancel_left, add_sub_cancel_left]
  have hapart : (l.blocks.map Block.box).Pairwise fun a b => a.overlap b = 0 := by
    rw [List.pairwise_map, List.pairwise_iff_getElem]
    intro i j hi hj hlt
    exact (h.apart hp rfl hlt.ne (List.getElem?_eq_getElem hi)
      (List.getElem?_eq_getElem hj)).overlap_eq_zero
  rw [hinside]
  obtain ⟨hx, hwide, hy, hhigh⟩ := hfront c hc
  obtain ⟨hright, habove⟩ := le_boundingSides hc
  exact sum_overlap_le ((hx.trans hwide).trans hright) ((hy.trans hhigh).trans habove) hapart

/-- **A packing is no smaller than its blocks.**  Once two sequences are installed on blocks without
negative sides, the area of all blocks is at most that of the bounding box of the packed layout; and
in an outline that has an area, what the area term measures of it is no less than the utilization.
-/
theorem setSequences_pack_area {l₀ l : Layout Rat} {positive negative : List Int}
    (hsides : ∀ b ∈ l₀.blocks, 0 ≤ b.width ∧ 0 ≤ b.height)
    (hset : (setSequences positive negative).run l₀ = .ok () l) :
    (l₀.blocks.map Block.area).sum ≤ l.pack.boundingSides.1 * l.pack.boundingSides.2 ∧
      ∀ (d : Design Rat) (o : Objective Rat), o.outlineWidth = d.outlineWidth →
        o.outlineHeight = d.outlineHeight → 0 < d.outlineArea → d.blocks = l.pack.blocks →
        ∃ share, o.measure l.pack .area = .ok share ∧ d.utilization ≤ share := by
  obtain ⟨hpair, hblocks⟩ := run_setSequences_ok_iff.mp hset
  rw [← hblocks] at hsides ⊢
  have h : l.Coherent := by
    rw [Layout.Coherent, size, hblocks]
    exact SequencePair.coherent_of_ofPermutations hpair
  have hareas : l.pack.blocks.map Block.area = l.blocks.map Block.area := by
    rw [pack_eq_arrange h]
    exact map_blocks_arrange (fun _ _ _ => rfl) _ _
  have hpacked : l.pair.Coherent l.pack.size := by
    rw [pack_size h]
    exact h
  have hle := (pack_respects h hsides).sum_area_le hpacked (pack_sides h hsides)
  constructor
  · rw [← hareas]
    exact hle
  · intro d o hw hh hpos hd
    have harea : o.outlineArea = d.outlineArea := by
      rw [Objective.outlineArea, hw, hh, Design.outlineArea]
    have hne : d.outlineArea ≠ 0 := hpos.ne'
    have hne' : o.outlineArea ≠ 0 := by rwa [harea]
    refine ⟨_, divide_eq_ok hne', ?_⟩
    rw [Design.utilization, if_neg (by simpa using hne), Design.blockArea, Scalar.sum_eq, hd, harea]
    exact div_le_div_of_nonneg_right hle hpos.le

/-- A wide block with a tall one above it: together they have area five, and the box around them has
eight. -/
theorem setSequences_pack_area_wideAndTall :
    (∀ b ∈ wideAndTall.blocks, 0 ≤ b.width ∧ 0 ≤ b.height) ∧
      ∃ l, (setSequences [1, 0] [0, 1]).run wideAndTall = .ok () l ∧ l.pack.boundingSides = (2, 4) ∧
        (wideAndTall.blocks.map Block.area).sum = 5 ∧
        (wideAndTall.blocks.map Block.area).sum ≤ l.pack.boundingSides.1 * l.pack.boundingSides.2 ∧
        ∃ share, Objective.measure ⟨4, 4, [], [], [], [], [], Weights.standard, 0, 0⟩ l.pack .area
            = .ok share ∧
          Design.utilization { outlineWidth := 4, outlineHeight := 4, blocks := l.pack.blocks }
              ≤ share := by
  have hsides : ∀ b ∈ wideAndTall.blocks, 0 ≤ b.width ∧ 0 ≤ b.height := by decide +kernel
  have hset : (setSequences [1, 0] [0, 1]).run wideAndTall
      = .ok () { wideAndTall with pair := .ofSequences 2 [1, 0] [0, 1] } := rfl
  obtain ⟨harea, hshare⟩ := setSequences_pack_area hsides hset
  refine ⟨hsides, _, hset, by decide +kernel, by decide +kernel, harea, hshare _ _ rfl rfl ?_ rfl⟩
  norm_num [Design.outlineArea]

end Layout

end BlockPlan
