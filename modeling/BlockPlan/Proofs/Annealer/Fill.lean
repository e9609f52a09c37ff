import Mathlib
import BlockPlan.Proofs.Annealer.Growth
import BlockPlan.Proofs.Annealer.Setup

/-!
# What filling dead space leaves alone

The soft blocks inside the outline grow one after the other.  What one of them takes is clear of all
other blocks, of those that have grown and of those that have not, and of all blockages; so no two
blocks share more or less than before, and no block shares more or less with a blockage.

* `Block.GrownFrom` — what growing makes of a block.
* `Grid.Filled` — what filling makes of blocks, beside boxes that are not grown into.
* **`Grid.growBlocks_filled`** — growing the blocks of a grid fills it.
* **`Plan.fill_filled`** — filling never fails, and all overlaps are what they were.
-/

namespace BlockPlan

/-- A block as it was, or a soft one inside an outline that has grown inside it. -/
structure Block.GrownFrom (width height : Rat) (b₀ b : Block Rat) : Prop where
  same : b₀.isHard = true ∨ b₀.isInside width height = false → b = b₀
  inside : b₀.isInside width height = true → b.isInside width height = true
  covers : b.box.Covers b₀.box
  stretched : ∃ x y w h, b = b₀.stretch x y w h

namespace Block

variable {width height : Rat} {b : Block Rat}

lemma GrownFrom.refl (width height : Rat) (b : Block Rat) : b.GrownFrom width height b :=
  ⟨fun _ => rfl, id, Box.Covers.refl _, _, _, _, _, rfl⟩

lemma GrownFrom.shapeKey {b₀ : Block Rat} (h : b₀.GrownFrom width height b) :
    b.shapeKey = b₀.shapeKey := by
  obtain ⟨x, y, w, h, rfl⟩ := h.stretched
  rfl

end Block

namespace Grid

variable {width height : Rat} {boxes : List (Box Rat)} {g : Grid Rat}

/-! ## One block of many -/

section Cut

variable (hwidth : 0 < width) (hheight : 0 < height) (hcut : Taken (ofBoxes width height boxes) g)

include hwidth hheight hcut

/-- Whatever lies between lines lies inside the outline. -/
lemma regionBox_inside {left right bottom top : Nat} (hcolumns : left ≤ right)
    (hright : right < g.xLines.length) (hrows : bottom ≤ top) (htop : top < g.yLines.length) :
    0 ≤ (g.regionBox left right bottom top).xMin ∧ 0 ≤ (g.regionBox left right bottom top).yMin ∧
      (g.regionBox left right bottom top).xMax ≤ width ∧
      (g.regionBox left right bottom top).yMax ≤ height := by
  rw [hcut.xLines] at hright
  rw [hcut.yLines] at htop
  rw [hcut.regionBox]
  exact ⟨(cutLines_getD_bounds hwidth (hcolumns.trans_lt hright)).1,
    (cutLines_getD_bounds hheight (hrows.trans_lt htop)).1, (cutLines_getD_bounds hwidth hright).2,
    (cutLines_getD_bounds hheight htop).2⟩

/-- A box of the grid that lies inside the outline and has cells lies on the lines. -/
lemma span_of_inside {b : Box Rat} (hb : b ∈ boxes) (hxMin : 0 ≤ b.xMin) (hyMin : 0 ≤ b.yMin)
    (hxMax : b.xMax ≤ width) (hyMax : b.yMax ≤ height) (hcolumns : (g.span b).1.1 < (g.span b).1.2)
    (hrows : (g.span b).2.1 < (g.span b).2.2) :
    ∃ left right bottom top : Nat,
      g.span b = (((left : Int), (right : Int)), ((bottom : Int), (top : Int))) ∧
      left < right ∧ right < g.xLines.length ∧ bottom < top ∧ top < g.yLines.length ∧
      g.regionBox left right bottom top = b := by
  have hxs : g.xLines = cutLines width (boxes.flatMap fun b => [b.xMin, b.xMax]) := hcut.xLines
  have hys : g.yLines = cutLines height (boxes.flatMap fun b => [b.yMin, b.yMax]) := hcut.yLines
  simp only [span, regionBox, hxs, hys] at hcolumns hrows ⊢
  obtain ⟨left, right, hlr, hright, hxspan, hleft', hright'⟩ :=
    cellRange_cutLines hwidth (List.mem_flatMap.mpr ⟨b, hb, by simp⟩)
      (List.mem_flatMap.mpr ⟨b, hb, by simp⟩) hxMin hxMax hcolumns
  obtain ⟨bottom, top, hbt, htop, hyspan, hbottom', htop'⟩ :=
    cellRange_cutLines hheight (List.mem_flatMap.mpr ⟨b, hb, by simp⟩)
      (List.mem_flatMap.mpr ⟨b, hb, by simp⟩) hyMin hyMax hrows
  refine ⟨left, right, bottom, top, ?_, hlr, hright, hbt, htop, ?_⟩
  · rw [hxspan, hyspan]
  · rw [hleft', hright', hbottom', htop']

/-- The grid leads from one edge of the outline to the other on both axes. -/
lemma cut_divides : Divides width g.xLines ∧ Divides height g.yLines := by
  rw [hcut.xLines, hcut.yLines]
  exact ⟨cutLines_divides hwidth _, cutLines_divides hheight _⟩

lemma cut_outline : g.outline = ⟨0, 0, width, height⟩ := by
  obtain ⟨hcolumns, hrows⟩ := cut_divides hwidth hheight hcut
  rw [outline, regionBox, hcolumns.getD_zero, hcolumns.getD_last, hrows.getD_zero, hrows.getD_last]

/-- A block inside the outline whose sides are above zero has cells. -/
lemma span_lt_of_inside {b : Block Rat} (hinside : b.isInside width height = true)
    (hw : 0 < b.width) (hh : 0 < b.height) :
    (g.span b.box).1.1 < (g.span b.box).1.2 ∧ (g.span b.box).2.1 < (g.span b.box).2.2 := by
  obtain ⟨hcolumns, hrows⟩ := cut_divides hwidth hheight hcut
  obtain ⟨hxMin, hyMin, hxMax, hyMax⟩ := Block.isInside_iff.mp hinside
  exact ⟨cellRange_lt hcolumns hxMin (lt_add_of_pos_right b.x hw) hxMax,
    cellRange_lt hrows hyMin (lt_add_of_pos_right b.y hh) hyMax⟩

/-- A soft block inside the outline grows inside it.  If its sides are above zero, each of them ends
up at the edge of the outline or against one of the other boxes that hold cells. -/
lemma growBlock_cases {b : Block Rat} (hb : b.box ∈ boxes) (hsoft : b.isSoft = true)
    (hinside : b.isInside width height = true) (i : Nat) :
    ∃ b' g', growBlock i b g = (b', g') ∧ b.GrownFrom width height b' ∧ Grows g b.box g' b'.box ∧
      (0 < b'.width → 0 < b'.height → ∀ Near, (g.HeldBy fun r => r = b.box ∨ Near r) →
        ∀ side, b'.box.Stopped g.outline Near side) := by
  by_cases hempty : (g.span b.box).1.2 ≤ (g.span b.box).1.1 ∨
      (g.span b.box).2.2 ≤ (g.span b.box).2.1
  · refine ⟨b, g, if_pos hempty, Block.GrownFrom.refl _ _ b, Grows.refl hcut.shaped _,
        fun hw hh => ?_⟩
    obtain ⟨hcolumns, hrows⟩ := span_lt_of_inside hwidth hheight hcut hinside hw hh
    exact absurd hempty (not_or.mpr ⟨hcolumns.not_ge, hrows.not_ge⟩)
  · push Not at hempty
    obtain ⟨hxMin, hyMin, hxMax, hyMax⟩ := Block.isInside_iff.mp hinside
    obtain ⟨left, right, bottom, top, hspan, hlr, hright, hbt, htop, hbox⟩ :=
      span_of_inside hwidth hheight hcut hb hxMin hyMin hxMax hyMax hempty.1 hempty.2
    obtain ⟨l, r, u, v, b', g', hrun, hr, hv, hl, hu, hstretched, hbox', hgrows, hstopped⟩ :=
      growBlock_grows hcut.shaped hspan hlr hright hbt htop hbox i
    have hgrown : b.GrownFrom width height b' := by
      refine ⟨?_, ?_, hgrows.covers, hstretched⟩
      · rintro (hhard | hout)
        · rw [Block.isSoft, hhard] at hsoft
          cases hsoft
        · rw [hinside] at hout
          cases hout
      · intro _
        rw [Block.isInside_iff, hbox']
        exact regionBox_inside hwidth hheight hcut hl hr hu hv
    exact ⟨b', g', hrun, hgrown, hgrows, fun _ _ => hstopped⟩

/-- The first of some blocks grows, or stays as it is, and the others go on with the cells that it
leaves. -/
lemma growBlocks_cons {b : Block Rat} (hb : b.box ∈ boxes) (i : Nat) (rest : List (Block Rat)) :
    ∃ b' g', growBlocks width height i (b :: rest) g
        = b' :: growBlocks width height (i + 1) rest g' ∧
      b.GrownFrom width height b' ∧ Grows g b.box g' b'.box ∧
      (b'.isSoft = true → b'.isInside width height = true → 0 < b'.width → 0 < b'.height →
        ∀ Near, (g.HeldBy fun r => r = b.box ∨ Near r) →
        ∀ side, b'.box.Stopped g.outline Near side) := by
  rw [growBlocks]
  split_ifs with hgrows
  · obtain ⟨hsoft, hinside⟩ := Bool.and_eq_true_iff.mp hgrows
    obtain ⟨b', g', hrun, hgrown, hgrows, hstopped⟩ :=
      growBlock_cases hwidth hheight hcut hb hsoft hinside i
    rw [hrun]
    exact ⟨b', g', rfl, hgrown, hgrows, fun _ _ => hstopped⟩
  · refine ⟨b, g, rfl, Block.GrownFrom.refl width height b, Grows.refl hcut.shaped _,
        fun hsoft hinside => ?_⟩
    exact absurd (Bool.and_eq_true_iff.mpr ⟨hsoft, hinside⟩) hgrows

end Cut

/-! ## All blocks -/

/-- What filling makes of blocks, beside boxes that are not grown into. -/
structure Filled (width height : Rat) (Spared : Box Rat → Prop)
    (blocks₀ blocks : List (Block Rat)) :
    Prop where
  grown : List.Forall₂ (Block.GrownFrom width height) blocks₀ blocks
  spared : ∀ r, Spared r →
    List.Forall₂ (fun b₀ b : Block Rat => b.box.overlap r = b₀.box.overlap r) blocks₀ blocks
  pairs : ∀ (i j : Nat) (b₀ c₀ b c : Block Rat), i ≠ j → blocks₀[i]? = some b₀ →
    blocks₀[j]? = some c₀ →
    blocks[i]? = some b → blocks[j]? = some c → b.box.overlap c.box = b₀.box.overlap c₀.box

/-- One block more that has grown before all others, into what is clear of them. -/
lemma Filled.cons {Spared Spared' : Box Rat → Prop} {blocks₀ blocks : List (Block Rat)}
    {b₀ b : Block Rat} (h : Filled width height Spared' blocks₀ blocks)
    (hgrown : b₀.GrownFrom width height b)
    (hoverlap : ∀ r, Spared r → b.box.overlap r = b₀.box.overlap r)
    (hspared : ∀ r, Spared r → Spared' r) (hown : Spared' b.box)
    (hothers : ∀ c ∈ blocks₀, Spared c.box) :
    Filled width height Spared (b₀ :: blocks₀) (b :: blocks) := by
  -- first the later block is taken back to what it was, beside the new box; then this one, beside
  -- its old box
  have hpair : ∀ (j : Nat) (c₀ c : Block Rat), blocks₀[j]? = some c₀ → blocks[j]? = some c →
      b.box.overlap c.box = b₀.box.overlap c₀.box := by
    intro j c₀ c hc₀ hc
    obtain ⟨hlt₀, rfl⟩ := List.getElem?_eq_some_iff.mp hc₀
    obtain ⟨hlt, rfl⟩ := List.getElem?_eq_some_iff.mp hc
    calc b.box.overlap blocks[j].box
        = blocks[j].box.overlap b.box := Box.overlap_comm _ _
      _ = blocks₀[j].box.overlap b.box := (h.spared _ hown).get hlt₀ hlt
      _ = b.box.overlap blocks₀[j].box := Box.overlap_comm _ _
      _ = b₀.box.overlap blocks₀[j].box := hoverlap _ (hothers _ (List.getElem_mem hlt₀))
  refine ⟨.cons hgrown h.grown, fun r hr => .cons (hoverlap r hr) (h.spared r (hspared r hr)), ?_⟩
  intro i j x₀ y₀ x y hne hx₀ hy₀ hx hy
  cases i with
  | zero =>
      obtain ⟨j, rfl⟩ : ∃ k, j = k + 1 := ⟨j - 1, by omega⟩
      obtain rfl : b₀ = x₀ := Option.some.inj hx₀
      obtain rfl : b = x := Option.some.inj hx
      exact hpair j y₀ y hy₀ hy
  | succ i =>
      cases j with
      | zero =>
          obtain rfl : b₀ = y₀ := Option.some.inj hy₀
          obtain rfl : b = y := Option.some.inj hy
          rw [Box.overlap_comm, hpair i x₀ x hx₀ hx, Box.overlap_comm]
      | succ j => exact h.pairs i j x₀ y₀ x y (by omega) hx₀ hy₀ hx hy

/-- **Growing blocks fills the free cells of a grid that is clear of all of them.** -/
theorem growBlocks_filled (hwidth : 0 < width) (hheight : 0 < height) {blocks : List (Block Rat)}
    (hcut : Taken (ofBoxes width height boxes) g) (hboxes : ∀ b ∈ blocks, b.box ∈ boxes)
    (hclear : ∀ b ∈ blocks, g.Clear b.box) (i : Nat) :
    Filled width height g.Clear blocks (growBlocks width height i blocks g) := by
  induction blocks generalizing g i with
  | nil => exact ⟨.nil, fun _ _ => .nil, fun i j b₀ c₀ b c _ hb₀ => by simp at hb₀⟩
  | cons b rest ih =>
      have hrest : ∀ c ∈ rest, c.box ∈ boxes := fun c hc => hboxes c (List.mem_cons_of_mem b hc)
      have hothers : ∀ c ∈ rest, g.Clear c.box := fun c hc => hclear c (List.mem_cons_of_mem b hc)
      have hown := hclear b List.mem_cons_self
      obtain ⟨b', g', hrun, hgrown, hgrows, -⟩ :=
        growBlocks_cons hwidth hheight hcut (hboxes b List.mem_cons_self) i rest
      rw [hrun]
      exact (ih (hcut.trans hgrows.taken) hrest (fun c hc => hgrows.taken.clear _ (hothers c hc))
        (i + 1)).cons hgrown hgrows.overlap hgrows.taken.clear (hgrows.clear hown) hothers

/-! ## What is measured -/

namespace Filled

variable {Spared : Box Rat → Prop} {blocks₀ blocks : List (Block Rat)}

lemma map_shapeKey (h : Filled width height Spared blocks₀ blocks) :
    blocks.map Block.shapeKey = blocks₀.map Block.shapeKey := by
  obtain ⟨hgrown, -, -⟩ := h
  induction hgrown with
  | nil => rfl
  | cons hb _ ih => rw [List.map_cons, List.map_cons, hb.shapeKey, ih]

/-- Filling leaves the sum of all overlaps of blocks as it was. -/
lemma sum_pairs (h : Filled width height Spared blocks₀ blocks) :
    ((Design.pairs blocks).map fun p => p.1.box.overlap p.2.box).sum
      = ((Design.pairs blocks₀).map fun p => p.1.box.overlap p.2.box).sum := by
  have hlength := h.grown.length_eq
  have hbefore : (blocks₀.zip blocks).map Prod.fst = blocks₀ := List.map_fst_zip hlength.le
  have hafter : (blocks₀.zip blocks).map Prod.snd = blocks := List.map_snd_zip hlength.ge
  calc ((Design.pairs blocks).map fun p => p.1.box.overlap p.2.box).sum
      = ((Design.pairs (blocks₀.zip blocks)).map fun e => e.1.2.box.overlap e.2.2.box).sum := by
        rw [← hafter, Design.pairs_map, List.map_map, hafter]
        rfl
    _ = ((Design.pairs (blocks₀.zip blocks)).map fun e => e.1.1.box.overlap e.2.1.box).sum := by
        refine congrArg List.sum (List.map_congr_left fun e he => ?_)
        obtain ⟨i, j, hne, hi, hj⟩ := Design.mem_pairs he
        obtain ⟨hi₀, hi⟩ := List.getElem?_zip_eq_some.mp hi
        obtain ⟨hj₀, hj⟩ := List.getElem?_zip_eq_some.mp hj
        exact h.pairs i j _ _ _ _ hne hi₀ hj₀ hi hj
    _ = ((Design.pairs blocks₀).map fun p => p.1.box.overlap p.2.box).sum := by
        conv_rhs => rw [← hbefore, Design.pairs_map, List.map_map]
        rfl

/-- Filling leaves the area of blocks on blockages as it was if these are spared. -/
lemma blockedArea_eq (h : Filled width height Spared blocks₀ blocks) {o : Objective Rat}
    (hspared : ∀ r ∈ o.blockages, Spared r) : o.blockedArea blocks = o.blockedArea blocks₀ := by
  have hshared : List.Forall₂
      (fun b₀ b : Block Rat => o.blockages.map b.box.overlap = o.blockages.map b₀.box.overlap)
      blocks₀ blocks := by
    refine List.forall₂_iff_get.mpr ⟨h.grown.length_eq, fun i hi₀ hi => ?_⟩
    exact List.map_congr_left fun r hr => (h.spared r (hspared r hr)).get hi₀ hi
  clear h
  induction hshared with
  | nil => rfl
  | cons hb _ ih => rw [Objective.blockedArea_cons, Objective.blockedArea_cons, hb, ih]

end Filled

end Grid

namespace Objective

variable {o : Objective Rat} {blocks₀ blocks : List (Block Rat)}

/-- A block inside the outline does not stick out of it. -/
lemma overflow_of_inside {b : Block Rat} (h : b.isInside o.outlineWidth o.outlineHeight = true) :
    max 0 (-b.x) = 0 ∧ max 0 (b.xMax - o.outlineWidth) = 0 ∧ max 0 (-b.y) = 0 ∧
      max 0 (b.yMax - o.outlineHeight) = 0 := by
  obtain ⟨hx, hy, hxMax, hyMax⟩ := Block.isInside_iff.mp h
  exact ⟨max_eq_left (neg_nonpos.mpr hx), max_eq_left (sub_nonpos.mpr hxMax),
    max_eq_left (neg_nonpos.mpr hy), max_eq_left (sub_nonpos.mpr hyMax)⟩

/-- Growing inside the outline leaves what sticks out of it as it was. -/
lemma overflow_eq_of_grown
    (h : List.Forall₂ (Block.GrownFrom o.outlineWidth o.outlineHeight) blocks₀ blocks) :
    o.overflow blocks = o.overflow blocks₀ := by
  refine (List.rel_foldl (P := Eq) (fun total _ htotal b₀ b hb => ?_) rfl h).symm
  obtain rfl := htotal
  cases hinside : b₀.isInside o.outlineWidth o.outlineHeight with
  | false => rw [hb.same (Or.inr hinside)]
  | true =>
      obtain ⟨hx₀, hxMax₀, hy₀, hyMax₀⟩ := overflow_of_inside hinside
      obtain ⟨hx, hxMax, hy, hyMax⟩ := overflow_of_inside (hb.inside hinside)
      simp only [Scalar.larger_eq_max, hx₀, hxMax₀, hy₀, hyMax₀, hx, hxMax, hy, hyMax]

/-- **Filling the dead space between blocks spares all blocks and all blockages.** -/
theorem fillDeadSpace_filled (hwidth : 0 < o.outlineWidth) (hheight : 0 < o.outlineHeight)
    (blocks : List (Block Rat)) :
    Grid.Filled o.outlineWidth o.outlineHeight (· ∈ o.blockages) blocks
      (o.fillDeadSpace blocks) := by
  obtain ⟨hcut, hclear⟩ := Grid.ofLayout_clear o.outlineWidth o.outlineHeight (blocks.map Block.box)
    o.blockages
  have hfilled := Grid.growBlocks_filled hwidth hheight hcut
    (fun b hb => List.mem_append_left _ (List.mem_map_of_mem hb))
    (fun b hb => hclear _ (List.mem_append_left _ (List.mem_map_of_mem hb))) 0
  refine ⟨hfilled.grown, ?_, hfilled.pairs⟩
  intro r hr
  exact hfilled.spared r (hclear r (List.mem_append_right _ hr))

end Objective

namespace Plan

variable {setup : Setup Rat}

lemma run_fill (hsetup : setup.Fair) (p : Plan Rat) :
    (fill setup).run p = .ok ()
      { p with
        layout := { p.layout with blocks := setup.objective.fillDeadSpace p.layout.blocks }
        tally := p.tally.measured setup.objective true
          { p.layout with blocks := setup.objective.fillDeadSpace p.layout.blocks }
        lastMove := none } := by
  simp only [fill, EStateM.run_bind, onLayout, Edit.run_within, EStateM.run_modify,
    run_evaluate hsetup, forget]

/-- **Filling dead space never fails, and leaves all overlaps as they were.**  Hard blocks, soft
blocks that are not inside the outline, the sequences and the shapes in force stay as they are;
every other block comes to contain its old box and stays inside the outline; no two blocks share
another area than before, and no block does with a blockage.  The values that are measured anew for
what sticks out of the outline and for what lies on blockages are those of the plan before. -/
theorem fill_filled {d : Design Rat} {settings : Settings Rat} {plan : Plan Rat}
    (hmade : Setup.ofDesign d settings = .ok (setup, plan)) (p : Plan Rat) :
    ∃ q, (fill setup).run p = .ok () q ∧
      q.layout.pair = p.layout.pair ∧
      q.layout.blocks.map Block.shapeKey = p.layout.blocks.map Block.shapeKey ∧
      List.Forall₂ (Block.GrownFrom d.outlineWidth d.outlineHeight) p.layout.blocks
        q.layout.blocks ∧
      (∀ (i j : Nat) (b₀ c₀ b c : Block Rat), i ≠ j → p.layout.blocks[i]? = some b₀ →
        p.layout.blocks[j]? = some c₀ → q.layout.blocks[i]? = some b →
        q.layout.blocks[j]? = some c →
        b.box.overlap c.box = b₀.box.overlap c₀.box) ∧
      (∀ r ∈ d.blockages, List.Forall₂
        (fun b₀ b : Block Rat => b.box.overlap r.box = b₀.box.overlap r.box)
        p.layout.blocks q.layout.blocks) ∧
      (q.design setup).overlapArea = (p.design setup).overlapArea ∧
      (q.design setup).blockedArea = (p.design setup).blockedArea ∧
      ∀ t ∈ [Term.outline, Term.blockage],
        q.tally.raw.get t = setup.objective.value q.layout t ∧
        setup.objective.value q.layout t = setup.objective.value p.layout t := by
  obtain ⟨-, -, -, hvalid, hobjective, hdesign, -⟩ := Setup.ofDesign_eq_ok hmade
  obtain ⟨hw, hh, -, hblockages⟩ := Objective.ofDesign_eq_ok hobjective
  obtain ⟨hwidth, hheight⟩ := Design.validate_pos hvalid
  rw [← hw] at hwidth
  rw [← hh] at hheight
  have hfilled := Objective.fillDeadSpace_filled hwidth hheight p.layout.blocks
  have hblocked := hfilled.blockedArea_eq (o := setup.objective) fun r => id
  have hoverflow := Objective.overflow_eq_of_grown hfilled.grown
  have hgrown := hfilled.grown
  rw [hw, hh] at hgrown
  refine ⟨_, run_fill (Setup.ofDesign_fair hmade) p, rfl, hfilled.map_shapeKey, hgrown,
    hfilled.pairs, ?_, ?_, ?_, ?_⟩
  · intro r hr
    apply hfilled.spared
    rw [hblockages]
    exact List.mem_map_of_mem hr
  · rw [Design.overlapArea_eq, Design.overlapArea_eq]
    exact hfilled.sum_pairs
  · subst hdesign
    rw [Objective.blockedArea_design (d := design setup _) hblockages,
      Objective.blockedArea_design (d := design setup _) hblockages]
    exact hblocked
  · intro t ht
    constructor
    · rw [Tally.measured, PerTerm.get_ofFn, Bool.true_or, if_pos rfl]
    · rcases List.mem_pair.mp ht with rfl | rfl
      · exact hoverflow
      · exact hblocked

/-- A soft block with room on its left, and a hard one that lies on it and on a blockage. -/
def crowded : Design Rat where
  outlineWidth := 10
  outlineHeight := 10
  blocks := [⟨"s", .soft [(2, 2)] 0, 2, 0, 2, 2, false⟩,
    ⟨"h", .hard 4 2 [.r0] .r0, 3, 1, 4, 2, false⟩]
  blockages := [⟨6, 2, 4, 8⟩]

lemma crowded_wellFormed : ∀ b ∈ crowded.blocks, b.WellFormed := by
  intro b hb
  rw [crowded, List.mem_cons, List.mem_singleton] at hb
  rcases hb with rfl | rfl
  · exact Block.soft_wellFormed (show Block.soft (α := Rat) "s" [(2, 2)] 0 { x := 2 } = .ok _ by
      with_unfolding_all rfl)
  · exact Block.hard_wellFormed
      (show Block.hard (α := Rat) "h" 4 2 [.r0] .r0 { x := 3, y := 1 } = .ok _ by
      with_unfolding_all rfl)

lemma crowded_made :
    ∃ setup plan, Setup.ofDesign crowded {} = .ok (setup, plan) ∧
      plan.layout.blocks = crowded.blocks ∧ setup.objective.outlineWidth = 10 ∧
      setup.objective.outlineHeight = 10 ∧ setup.objective.blockages = [⟨6, 2, 10, 10⟩] :=
  ⟨_, _, by with_unfolding_all rfl, rfl, rfl, rfl, by decide +kernel⟩

lemma fillDeadSpace_crowded {o : Objective Rat} (hwidth : o.outlineWidth = 10)
    (hheight : o.outlineHeight = 10) (hblockages : o.blockages = [⟨6, 2, 10, 10⟩]) :
    o.fillDeadSpace crowded.blocks = [⟨"s", .soft [(2, 2)] 0, 0, 0, 4, 2, false⟩,
      ⟨"h", .hard 4 2 [.r0] .r0, 3, 1, 4, 2, false⟩] := by
  have hlines : Grid.ofBoxes (10 : Rat) 10 (crowded.blocks.map Block.box ++ [⟨6, 2, 10, 10⟩])
      = ⟨[0, 2, 3, 4, 6, 7, 10], [0, 1, 2, 3, 10], .replicate 4 (.replicate 6 .free)⟩ := by cbv
  rw [Objective.fillDeadSpace, Objective.grid, hwidth, hheight, hblockages, Grid.ofLayout, hlines]
  decide +kernel

/-- The soft block grows to the left edge, and the hard one shares as much with it and with the
blockage as before. -/
theorem fill_filled_crowded :
    ∃ setup plan q, Setup.ofDesign crowded {} = .ok (setup, plan) ∧
      (fill setup).run plan = .ok () q ∧
      q.layout.blocks = [⟨"s", .soft [(2, 2)] 0, 0, 0, 4, 2, false⟩,
        ⟨"h", .hard 4 2 [.r0] .r0, 3, 1, 4, 2, false⟩] ∧
      (q.design setup).overlapArea = 1 ∧ (q.design setup).blockedArea = 1 := by
  obtain ⟨setup, plan, hmade, hdesign, hwidth, hheight, hblockages⟩ :
      ∃ setup plan, Setup.ofDesign crowded {} = .ok (setup, plan) ∧ plan.design setup = crowded ∧
        setup.objective.outlineWidth = 10 ∧ setup.objective.outlineHeight = 10 ∧
        setup.objective.blockages = [⟨6, 2, 10, 10⟩] :=
    ⟨_, _, by with_unfolding_all rfl, rfl, rfl, rfl, by decide +kernel⟩
  obtain ⟨q, hrun, -, -, -, -, -, hoverlap, hblocked, -⟩ := fill_filled hmade plan
  have hblocks : plan.layout.blocks = crowded.blocks := congrArg Design.blocks hdesign
  rw [hdesign] at hoverlap hblocked
  obtain ⟨-, hq⟩ :=
    EStateM.Result.ok.inj ((run_fill (Setup.ofDesign_fair hmade) plan).symm.trans hrun)
  refine ⟨setup, plan, q, hmade, hrun, ?_, ?_, ?_⟩
  · rw [← hq, hblocks]
    exact fillDeadSpace_crowded hwidth hheight hblockages
  · rw [hoverlap]
    decide +kernel
  · rw [hblocked]
    decide +kernel

end Plan

end BlockPlan
