import Mathlib
import BlockPlan.Design.Metrics
import BlockPlan.Proofs.Cost.Sign
import BlockPlan.Proofs.Design.Resolved

/-!
# Terms that vanish on legal layouts

Outline, blockages, fences, guides and the preference for edges are measured by sums in which
nothing is negative: no excess of one block makes up for another.  So each of these terms is zero
exactly if every block does what is asked of it, and the terms for the outline and the blockages are
the metrics of the design.

* `Box.overlap_eq_zero_iff`, `Block.area_sub_overlap_eq_zero_iff`, `Rect.distance_eq_zero_iff`,
  `Design.extentOutside_eq_zero_iff`, `Objective.edgeGap_nonpos_iff` — when a single block
  contributes nothing.
* `Objective.overflow_eq`, `Objective.guideDistance_eq`, `Objective.fenceEscape_eq`,
  `Objective.edgeDistance_eq` — the terms as sums.
* `Objective.Judges` — that an objective agrees with the metrics of a placed design.
* **`Objective.ofDesign_judges`** — the objective of a valid design does, wherever its blocks are
  placed.
-/

namespace BlockPlan

open Scalar (larger smaller)

/-! ## Single blocks -/

namespace Box

lemma shared_pos {lo hi lo' hi' p : Rat} (hlo : lo < p) (hhi : p < hi) (hlo' : lo' < p)
    (hhi' : p < hi') : 0 < shared lo hi lo' hi' :=
  lt_max_of_lt_right (sub_pos.mpr ((max_lt hlo hlo').trans (lt_min hhi hhi')))

/-- Boxes share no area exactly if they have no inner point in common. -/
lemma overlap_eq_zero_iff {a b : Box Rat} :
    a.overlap b = 0 ↔ ∀ x y, ¬ (a.Interior x y ∧ b.Interior x y) := by
  constructor
  · rintro hzero x y ⟨ha, hb⟩
    rw [overlap_eq] at hzero
    have hx := shared_pos ha.left ha.right hb.left hb.right
    have hy := shared_pos ha.below ha.above hb.below hb.above
    exact (mul_pos hx hy).ne' hzero
  · intro hapart
    by_contra hne
    obtain ⟨x, y, hxy⟩ := Grid.exists_interior hne
    exact hapart x y hxy

/-- A span shares all of its length exactly with the spans around it. -/
lemma shared_eq_length_iff {lo hi lo' hi' : Rat} (hlt : lo < hi) :
    shared lo hi lo' hi' = hi - lo ↔ lo' ≤ lo ∧ hi ≤ hi' := by
  constructor
  · intro h
    have hcommon : min hi hi' - max lo lo' = hi - lo := by
      rcases max_choice 0 (min hi hi' - max lo lo') with hzero | hcommon
      · exact absurd (hzero.symm.trans h) (sub_pos.mpr hlt).ne
      · exact hcommon.symm.trans h
    have hlow := le_max_right lo lo'
    have hhigh := min_le_right hi hi'
    have hlow' := le_max_left lo lo'
    have hhigh' := min_le_left hi hi'
    constructor <;> linarith
  · rintro ⟨hlow, hhigh⟩
    exact shared_eq_of_inside hlow hlt.le hhigh

end Box

namespace Block

variable {b : Block Rat} (hw : 0 < b.width) (hh : 0 < b.height)

include hw hh

lemma area_sub_overlap_nonneg (r : Box Rat) : 0 ≤ b.area - b.box.overlap r := by
  have hx : b.box.xMin ≤ b.box.xMax := (lt_add_of_pos_right b.x hw).le
  have hy : b.box.yMin ≤ b.box.yMax := (lt_add_of_pos_right b.y hh).le
  have hwidth : b.box.xMax - b.box.xMin = b.width := add_sub_cancel_left b.x b.width
  have hheight : b.box.yMax - b.box.yMin = b.height := add_sub_cancel_left b.y b.height
  rw [Box.overlap_eq, sub_nonneg, area, ← hwidth, ← hheight]
  exact mul_le_mul (Box.shared_le hx _ _) (Box.shared_le hy _ _) (Box.shared_nonneg _ _ _ _)
    (sub_nonneg.mpr hx)

/-- A block has no area outside a box exactly if the box covers it. -/
lemma area_sub_overlap_eq_zero_iff (r : Box Rat) :
    b.area - b.box.overlap r = 0 ↔ r.Covers b.box := by
  have hx : b.box.xMin < b.box.xMax := lt_add_of_pos_right b.x hw
  have hy : b.box.yMin < b.box.yMax := lt_add_of_pos_right b.y hh
  have hwidth : b.box.xMax - b.box.xMin = b.width := add_sub_cancel_left b.x b.width
  have hheight : b.box.yMax - b.box.yMin = b.height := add_sub_cancel_left b.y b.height
  have hcovers : (Box.shared b.box.xMin b.box.xMax r.xMin r.xMax = b.width ∧
      Box.shared b.box.yMin b.box.yMax r.yMin r.yMax = b.height) ↔ r.Covers b.box := by
    rw [← hwidth, ← hheight, Box.shared_eq_length_iff hx, Box.shared_eq_length_iff hy]
    constructor
    · rintro ⟨⟨hleft, hright⟩, hbelow, habove⟩
      exact ⟨hleft, hbelow, hright, habove⟩
    · rintro ⟨hleft, hbelow, hright, habove⟩
      exact ⟨⟨hleft, hright⟩, hbelow, habove⟩
  have hxle := Box.shared_le hx.le r.xMin r.xMax
  have hyle := Box.shared_le hy.le r.yMin r.yMax
  rw [hwidth] at hxle
  rw [hheight] at hyle
  rw [← hcovers, Box.overlap_eq, sub_eq_zero, area, eq_comm]
  rcases (Box.shared_nonneg b.box.xMin b.box.xMax r.xMin r.xMax).eq_or_lt with hnone | hpos
  · rw [← hnone, zero_mul]
    exact iff_of_false (mul_pos hw hh).ne fun h => hw.ne h.1
  · exact mul_eq_mul_iff_eq_and_eq_of_pos hxle hyle hpos hh

end Block

/-- A point has no distance from a rectangle exactly if the rectangle contains it. -/
lemma Rect.distance_eq_zero_iff {r : Rect Rat} {px py : Rat} :
    r.distance px py = 0 ↔ r.contains px py = true := by
  have haxis : ∀ a b : Rat, larger (larger a 0) b = 0 ↔ a ≤ 0 ∧ b ≤ 0 := by
    intro a b
    have hnonneg : 0 ≤ max (max a 0) b := (le_max_right a 0).trans (le_max_left _ b)
    rw [Scalar.larger_eq_max, Scalar.larger_eq_max, le_antisymm_iff, and_iff_left hnonneg,
      max_le_iff, max_le_iff, and_iff_left le_rfl]
  have hnonneg : ∀ a b : Rat, 0 ≤ larger (larger a 0) b := fun _ _ =>
    Scalar.larger_nonneg_left (Scalar.larger_nonneg_right le_rfl)
  rw [distance, add_eq_zero_iff_of_nonneg (hnonneg _ _) (hnonneg _ _), haxis, haxis]
  simp only [sub_nonpos, contains, Bool.and_eq_true, decide_eq_true_eq]

namespace Design

variable {width height : Rat} {b : Block Rat}

lemma extentOutside_nonneg : 0 ≤ extentOutside width height b := by
  have hside : ∀ a : Rat, 0 ≤ larger 0 a := fun _ => Scalar.larger_nonneg_left le_rfl
  exact add_nonneg (add_nonneg (add_nonneg (hside _) (hside _)) (hside _)) (hside _)

/-- A block does not stick out of an outline exactly if it lies inside. -/
lemma extentOutside_eq_zero_iff : extentOutside width height b = 0 ↔
    b.isInside width height = true := by
  have hside : ∀ a : Rat, larger 0 a = 0 ↔ a ≤ 0 :=
    fun a => by rw [Scalar.larger_eq_max, max_eq_left_iff]
  have hnonneg : ∀ a : Rat, 0 ≤ larger 0 a := fun _ => Scalar.larger_nonneg_left le_rfl
  rw [extentOutside,
    add_eq_zero_iff_of_nonneg
      (add_nonneg (add_nonneg (hnonneg _) (hnonneg _)) (hnonneg _)) (hnonneg _),
    add_eq_zero_iff_of_nonneg (add_nonneg (hnonneg _) (hnonneg _)) (hnonneg _),
    add_eq_zero_iff_of_nonneg (hnonneg _) (hnonneg _), hside, hside, hside, hside,
    Block.isInside_iff]
  simp only [Block.box, neg_nonpos, sub_nonpos]
  tauto

end Design

namespace Objective

variable {o : Objective Rat}

/-- A block has no gap to the edges exactly if one of its four gaps is none. -/
lemma edgeGap_nonpos_iff {b : Block Rat} : o.edgeGap b ≤ 0 ↔
    b.x ≤ 0 ∨ b.y ≤ 0 ∨ o.outlineWidth - b.x - b.width ≤ 0 ∨
    o.outlineHeight - b.y - b.height ≤ 0 := by
  rw [edgeGap, Scalar.smaller_eq_min, Scalar.smaller_eq_min, Scalar.smaller_eq_min, min_le_iff,
    min_le_iff, min_le_iff, or_assoc, or_assoc]

/-! ## The terms as sums -/

lemma overflow_eq (blocks : List (Block Rat)) :
    o.overflow blocks = (blocks.map (Design.extentOutside o.outlineWidth o.outlineHeight)).sum :=
  foldl_eq_sum (fun total b => by rw [Design.extentOutside]; ring) blocks

/-- What is added up over regions for the blocks at their places. -/
def regionSum (f : Block Rat → Rect Rat → Rat) (blocks : List (Block Rat))
    (regions : List (Nat × Rect Rat)) : Rat :=
  (regions.map fun e => (blocks[e.1]?).elim 0 fun b => f b e.2).sum

lemma foldl_regions_eq {f : Block Rat → Rect Rat → Rat} {blocks : List (Block Rat)}
    {step : Rat → Nat × Rect Rat → Rat}
    (hsome : ∀ total e b, blocks[e.1]? = some b → step total e = total + f b e.2)
    (hnone : ∀ total e, blocks[e.1]? = none → step total e = total)
    (regions : List (Nat × Rect Rat)) : regions.foldl step 0 = regionSum f blocks regions := by
  refine foldl_eq_sum (fun total e => ?_) regions
  cases hb : blocks[e.1]? with
  | none => rw [hnone total e hb, Option.elim_none, add_zero]
  | some b => rw [hsome total e b hb, Option.elim_some]

section RegionSum

variable {f : Block Rat → Rect Rat → Rat} {blocks : List (Block Rat)}
  (hf : ∀ b ∈ blocks, ∀ r, 0 ≤ f b r) (regions : List (Nat × Rect Rat))

include hf

lemma region_nonneg (e : Nat × Rect Rat) : 0 ≤ (blocks[e.1]?).elim 0 fun b => f b e.2 := by
  cases hb : blocks[e.1]? with
  | none => exact le_rfl
  | some b => exact hf b (List.mem_of_getElem? hb) e.2

lemma regionSum_nonneg : 0 ≤ regionSum f blocks regions := by
  refine List.sum_nonneg fun x hx => ?_
  obtain ⟨e, -, rfl⟩ := List.mem_map.mp hx
  exact region_nonneg hf e

lemma regionSum_eq_zero_iff : regionSum f blocks regions = 0 ↔
    ∀ e ∈ regions, ∀ b, blocks[e.1]? = some b → f b e.2 = 0 := by
  rw [regionSum, sum_map_eq_zero_iff fun e _ => region_nonneg hf e]
  refine forall₂_congr fun e _ => ?_
  cases blocks[e.1]? with
  | none => simp
  | some b => simp

end RegionSum

lemma guideDistance_eq (blocks : List (Block Rat)) : o.guideDistance blocks
    = regionSum (fun b r => r.distance b.center.1 b.center.2) blocks o.guides :=
  foldl_regions_eq (fun _ _ _ h => by simp only [h]) (fun _ _ h => by simp only [h]) o.guides

lemma fenceEscape_eq (blocks : List (Block Rat)) : o.fenceEscape blocks
    = max (regionSum (fun b r => b.area - b.box.overlap r.box) blocks o.fences) 0 := by
  rw [fenceEscape, Scalar.larger_eq_max]
  exact congrArg (max · 0)
    (foldl_regions_eq (fun _ _ _ h => by simp only [h]) (fun _ _ h => by simp only [h]) o.fences)

lemma edgeDistance_eq (blocks : List (Block Rat)) : o.edgeDistance blocks
    = (blocks.map fun b => if b.prefersEdge then max (o.edgeGap b) 0 else 0).sum := by
  refine foldl_eq_sum (fun total b => ?_) blocks
  rw [Scalar.larger_eq_max]
  split_ifs
  · rfl
  · exact (add_zero total).symm

/-! ## The terms and the metrics -/

/-- That an objective agrees with the metrics of a design: it measures what they measure, and each
of its terms vanishes exactly if all blocks do what the term asks of them. -/
structure Judges (o : Objective Rat) (d : Design Rat) (l : Layout Rat) : Prop where
  /-- Every guide and every fence is that of one block. -/
  owned : ∀ r ∈ d.guides ++ d.fences, ∃! b, b ∈ l.blocks ∧ b.name = r.1
  outline : o.measure l .outline = .ok (d.violations.map (·.2)).sum
  outline_iff : o.measure l .outline = .ok 0 ↔ d.allInside = true
  allInside_iff : d.allInside = true ↔
    ∀ b ∈ l.blocks, b.isInside d.outlineWidth d.outlineHeight = true
  blockage : o.measure l .blockage = .ok d.blockedArea
  blockage_iff : o.measure l .blockage = .ok 0 ↔
    ∀ b ∈ l.blocks, ∀ r ∈ d.blockages, ∀ x y, ¬ (b.box.Interior x y ∧ r.box.Interior x y)
  fence_iff : o.measure l .fence = .ok 0 ↔
    ∀ f ∈ d.fences, ∀ b ∈ l.blocks, b.name = f.1 → f.2.box.Covers b.box
  guidance_iff : o.measure l .guidance = .ok 0 ↔
    ∀ g ∈ d.guides, ∀ b ∈ l.blocks, b.name = g.1 → g.2.contains b.center.1 b.center.2 = true
  boundary_iff : o.measure l .boundary = .ok 0 ↔
    ∀ b ∈ l.blocks, b.prefersEdge = true →
      b.x ≤ 0 ∨ b.y ≤ 0 ∨ d.outlineWidth - b.x - b.width ≤ 0 ∨ d.outlineHeight - b.y - b.height ≤ 0

/-- What sticks out of an outline in all is what the violations of a design list. -/
lemma sum_violations (d : Design Rat) : (d.violations.map (·.2)).sum
    = (d.blocks.map (Design.extentOutside d.outlineWidth d.outlineHeight)).sum := by
  rw [Design.violations, sum_filter_pos (f := fun v : String × Rat => v.2), List.map_map]
  · rfl
  · intro v hv
    obtain ⟨b, -, rfl⟩ := List.mem_map.mp hv
    exact Design.extentOutside_nonneg

lemma allInside_iff (d : Design Rat) : d.allInside = true ↔
    ∀ b ∈ d.blocks, b.isInside d.outlineWidth d.outlineHeight = true := by
  rw [Design.allInside, List.isEmpty_iff, Design.violations, List.filter_eq_nil_iff,
    List.forall_mem_map]
  refine forall₂_congr fun b _ => ?_
  rw [decide_eq_true_eq, not_lt, ← Design.extentOutside_eq_zero_iff]
  exact ⟨fun h => le_antisymm h Design.extentOutside_nonneg, le_of_eq⟩

lemma edgeDistance_eq_zero_iff {blocks : List (Block Rat)} : o.edgeDistance blocks = 0 ↔
    ∀ b ∈ blocks, b.prefersEdge = true → o.edgeGap b ≤ 0 := by
  rw [edgeDistance_eq, sum_map_eq_zero_iff]
  · refine forall₂_congr fun b _ => ?_
    split_ifs with hedge
    · simp only [hedge, forall_const, max_eq_right_iff]
    · simp only [hedge, Bool.false_eq_true, false_implies]
  · intro b _
    split_ifs
    · exact le_max_right _ _
    · exact le_rfl

/-- **The objective of a valid design agrees with its metrics, wherever its blocks are placed.** -/
theorem ofDesign_judges {d : Design Rat} {weights : Weights Rat} {width height : Rat}
    {o : Objective Rat} (hvalid : d.validate = .ok ())
    (ho : ofDesign d weights width height = .ok o) {l : Layout Rat}
    (hnames : l.blocks.map (·.name) = d.blockNames)
    (hsides : ∀ b ∈ l.blocks, 0 < b.width ∧ 0 < b.height) :
    o.Judges { d with blocks := l.blocks } l := by
  have hdesign := Design.validate_ok_iff.mp hvalid
  have hnodup : (l.blocks.map (·.name)).Nodup := hnames ▸ hdesign.names_nodup
  obtain ⟨-, -, hguides, hfences, hparts⟩ := ofDesign_iff.mp ho
  have hwidth : o.outlineWidth = d.outlineWidth := by rw [hparts]
  have hheight : o.outlineHeight = d.outlineHeight := by rw [hparts]
  have hblockages : o.blockages = d.blockages.map Rect.box := by rw [hparts]
  set placed : Design Rat := { d with blocks := l.blocks }
  have houtline : o.overflow l.blocks = (placed.violations.map (·.2)).sum := by
    rw [overflow_eq, sum_violations, hwidth, hheight]
  have hinside : o.overflow l.blocks = 0 ↔ placed.allInside = true := by
    rw [overflow_eq, sum_map_eq_zero_iff fun b _ =>
        Design.extentOutside_nonneg, allInside_iff, hwidth, hheight]
    exact forall₂_congr fun b _ => Design.extentOutside_eq_zero_iff
  have hblocked : o.blockedArea l.blocks = placed.blockedArea :=
    (blockedArea_design (d := placed) hblockages).symm
  have hescape : ∀ b ∈ l.blocks, ∀ r : Rect Rat, 0 ≤ b.area - b.box.overlap r.box := fun b hb r =>
    Block.area_sub_overlap_nonneg (hsides b hb).1 (hsides b hb).2 r.box
  have howned : ∀ name ∈ d.blockNames, ∃! b, b ∈ l.blocks ∧ b.name = name := by
    intro name hname
    rw [← hnames] at hname
    obtain ⟨b, hb, rfl⟩ := List.mem_map.mp hname
    refine ⟨b, ⟨hb, rfl⟩, ?_⟩
    rintro c ⟨hc, hsame⟩
    exact List.inj_on_of_nodup_map hnodup hc hb hsame
  constructor
  case owned =>
    intro r hr
    rcases List.mem_append.mp hr with hr | hr
    · exact howned r.1 (hdesign.guides_known r hr).1
    · exact howned r.1 (hdesign.fences_known r hr).1
  case outline => exact congrArg Except.ok houtline
  case outline_iff => rw [measure, Except.ok.injEq, hinside]
  case allInside_iff => exact allInside_iff placed
  case blockage => exact congrArg Except.ok hblocked
  case blockage_iff =>
    rw [measure, Except.ok.injEq, blockedArea_eq_zero_iff, hblockages]
    simp only [List.forall_mem_map, Box.overlap_eq_zero_iff]
    rfl
  case fence_iff =>
    have hzero := forall_resolved_iff hnames hdesign.names_nodup
      (fun b r => b.area - b.box.overlap r.box = 0) hfences
    rw [measure, Except.ok.injEq, fenceEscape_eq, max_eq_left (regionSum_nonneg hescape _),
      regionSum_eq_zero_iff hescape, hzero]
    refine forall₂_congr fun f _ => forall₂_congr fun b hb => imp_congr_right fun _ => ?_
    exact Block.area_sub_overlap_eq_zero_iff (hsides b hb).1 (hsides b hb).2 f.2.box
  case guidance_iff =>
    have hzero := forall_resolved_iff hnames hdesign.names_nodup
      (fun b r => r.distance b.center.1 b.center.2 = 0) hguides
    rw [measure, Except.ok.injEq, guideDistance_eq,
      regionSum_eq_zero_iff fun _ _ _ => Rect.distance_nonneg, hzero]
    simp only [Rect.distance_eq_zero_iff]
    rfl
  case boundary_iff =>
    rw [measure, Except.ok.injEq, edgeDistance_eq_zero_iff]
    simp only [edgeGap_nonpos_iff, hwidth, hheight]
    rfl

/-- A block with a fence, one with a guide that prefers the edge, and a blockage in a corner. -/
def enclosed : Design Rat where
  outlineWidth := 10
  outlineHeight := 10
  blocks := [⟨"core", .hard 4 2 [.r0] .r0, 3, 3, 4, 2, false⟩,
    ⟨"pad", .soft [(2, 2)] 0, 8, 5, 2, 2, true⟩]
  blockages := [⟨0, 0, 2, 2⟩]
  guides := [("pad", ⟨7, 4, 3, 4⟩)]
  fences := [("core", ⟨2, 2, 6, 4⟩)]

/-- Both blocks moved: the first one out of the outline and onto the blockage. -/
def enclosedMoved : Layout Rat :=
  .ofBlocks [⟨"core", .hard 4 2 [.r0] .r0, -1, 1, 4, 2, false⟩,
    ⟨"pad", .soft [(2, 2)] 0, 7, 5, 2, 2, true⟩]

/-- The first block sticks out by one and covers two of the blockage, and so no longer lies in its
fence; the second one is still at its guide, but no longer at an edge. -/
theorem ofDesign_judges_enclosed :
    enclosed.validate = .ok () ∧ (∀ b ∈ enclosedMoved.blocks, 0 < b.width ∧ 0 < b.height) ∧
      ∃ o, ofDesign enclosed .standard 0 0 = .ok o ∧
        o.Judges { enclosed with blocks := enclosedMoved.blocks } enclosedMoved ∧
        o.measure enclosedMoved .outline = .ok 1 ∧ o.measure enclosedMoved .blockage = .ok 2 ∧
        o.measure enclosedMoved .fence = .ok 7 ∧ o.measure enclosedMoved .guidance = .ok 0 ∧
        o.measure enclosedMoved .boundary = .ok 1 := by
  have hvalid : enclosed.validate = .ok () := by with_unfolding_all rfl
  have hsides : ∀ b ∈ enclosedMoved.blocks, 0 < b.width ∧ 0 < b.height := by decide +kernel
  obtain ⟨o, ho, hmeasured⟩ : ∃ o, ofDesign enclosed .standard 0 0 = .ok o ∧
      o.measure enclosedMoved .outline = .ok 1 ∧ o.measure enclosedMoved .blockage = .ok 2 ∧
      o.measure enclosedMoved .fence = .ok 7 ∧ o.measure enclosedMoved .guidance = .ok 0 ∧
      o.measure enclosedMoved .boundary = .ok 1 :=
    ⟨_, by with_unfolding_all rfl, by decide +kernel⟩
  exact ⟨hvalid, hsides, o, ho, ofDesign_judges hvalid ho rfl hsides, hmeasured⟩

end Objective

end BlockPlan
