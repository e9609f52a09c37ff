import BlockPlan.Proofs.Annealer.Align
import BlockPlan.Proofs.Annealer.Fill

/-!
# Aligning makes nothing worse

A snap is accepted only if the block lies inside the outline afterwards and shares no more area with
the others and the blockages than before.  The area of all overlaps is that of one block and that of
all others, so that it is a potential which no snap raises; and a block that has been moved does not
stick out at all.

* `Block.SnappedFrom` — what aligning makes of a block.
* `Objective.tryPlace_snapped` — a single snap keeps blocks snapped.
* `Objective.overflow_le_of_snapped` — snapped blocks stick out no further.
* **`Plan.align_noWorse`** — aligning raises neither the overlaps nor what sticks out of the
  outline.
-/

namespace BlockPlan

/-- A soft block as it was, or a hard one that may have been moved to a point inside an outline. -/
structure Block.SnappedFrom (width height : Rat) (b₀ b : Block Rat) : Prop where
  soft : b₀.isSoft = true → b = b₀
  placed : ∃ x y, b = b₀.place x y
  inside : b ≠ b₀ → b.isInside width height = true

lemma Block.SnappedFrom.refl (width height : Rat) (b : Block Rat) : b.SnappedFrom width height b :=
  ⟨fun _ => rfl, ⟨b.x, b.y, rfl⟩, fun h => absurd rfl h⟩

namespace Objective

variable {o : Objective Rat} {blocks blocks₀ : List (Block Rat)} {i : Nat}

/-- Placing a hard block keeps blocks snapped. -/
lemma tryPlace_snapped
    (h : List.Forall₂ (Block.SnappedFrom o.outlineWidth o.outlineHeight) blocks₀ blocks)
    (hhard : ∃ b₀, blocks₀[i]? = some b₀ ∧ b₀.isHard = true) (x y : Rat) :
    List.Forall₂ (Block.SnappedFrom o.outlineWidth o.outlineHeight) blocks₀
      (o.tryPlace i x y blocks) := by
  rcases o.tryPlace_cases i x y blocks with hsame | ⟨b, hb, hinside, -, hset⟩
  · rwa [hsame]
  · rw [hset]
    obtain ⟨b₀, hb₀, hb₀hard⟩ := hhard
    obtain ⟨hlt, rfl⟩ := List.getElem?_eq_some_iff.mp hb
    obtain ⟨hlt₀, rfl⟩ := List.getElem?_eq_some_iff.mp hb₀
    obtain ⟨x', y', hplaced⟩ := (h.get hlt₀ hlt).placed
    refine forall₂_set h fun c hc => ?_
    rw [List.getElem?_eq_getElem hlt₀, Option.some.injEq] at hc
    subst hc
    refine ⟨fun hsoft => ?_, ⟨x, y, ?_⟩, fun _ => hinside⟩
    · rw [Block.isSoft, hb₀hard] at hsoft
      cases hsoft
    · rw [show blocks[i] = _ from hplaced]
      rfl

/-- **Snapped blocks stick out of the outline no further than before.** -/
theorem overflow_le_of_snapped
    (h : List.Forall₂ (Block.SnappedFrom o.outlineWidth o.outlineHeight) blocks₀ blocks) :
    o.overflow blocks ≤ o.overflow blocks₀ := by
  refine List.rel_foldl (P := (· ≥ ·)) (fun total total' htotal b₀ b hb => ?_) (le_refl (0 : Rat)) h
  by_cases hsame : b = b₀
  · subst hsame
    exact add_le_add_left (add_le_add_left htotal _) _
  · -- a block that was moved adds nothing any more
    obtain ⟨hx, hxMax, hy, hyMax⟩ := overflow_of_inside (hb.inside hsame)
    simp only [Scalar.larger_eq_max, hx, hxMax, hy, hyMax, add_zero]
    have hnonneg : ∀ v : Rat, 0 ≤ max 0 v := le_max_left 0
    linarith [hnonneg (-b₀.x), hnonneg (b₀.xMax - o.outlineWidth), hnonneg (-b₀.y),
      hnonneg (b₀.yMax - o.outlineHeight)]

end Objective

namespace Plan

variable {setup : Setup Rat}

/-- **Aligning makes nothing worse.**  It never fails; blocks share no more area with each other and
with blockages, taken together, than before, and stick out of the outline no further.  The value
that is stored for what sticks out does not grow either if it was that of the layout.  Sequences and
soft blocks stay as they are; of a hard block nothing changes but its place, and where it has one of
its own it lies inside the outline. -/
theorem align_noWorse {d : Design Rat} {settings : Settings Rat} {plan : Plan Rat}
    (hmade : Setup.ofDesign d settings = .ok (setup, plan)) (h? v? : Option Rat) (p : Plan Rat) :
    ∃ q, (align setup h? v?).run p = .ok () q ∧
      (q.design setup).overlapArea + (q.design setup).blockedArea
        ≤ (p.design setup).overlapArea + (p.design setup).blockedArea ∧
      setup.objective.value q.layout .outline ≤ setup.objective.value p.layout .outline ∧
      (p.tally.raw.get .outline = setup.objective.value p.layout .outline →
        q.tally.raw.get .outline = setup.objective.value q.layout .outline ∧
        q.tally.raw.get .outline ≤ p.tally.raw.get .outline) ∧
      q.layout.pair = p.layout.pair ∧
      List.Forall₂ (Block.SnappedFrom d.outlineWidth d.outlineHeight) p.layout.blocks
        q.layout.blocks := by
  obtain ⟨-, -, -, -, hobjective, hdesign, -⟩ := Setup.ofDesign_eq_ok hmade
  obtain ⟨hw, hh, -, hblockages⟩ := Objective.ofDesign_eq_ok hobjective
  obtain ⟨q, hrun, ⟨haligned, hsnapped⟩, hq⟩ := run_align_keeps (Setup.ofDesign_fair hmade) h? v?
    (P := fun blocks => setup.objective.Aligned p.layout.blocks blocks ∧
      List.Forall₂ (Block.SnappedFrom setup.objective.outlineWidth setup.objective.outlineHeight)
        p.layout.blocks blocks)
    ⟨Objective.Aligned.refl _ _, List.forall₂_same.mpr fun b _ => Block.SnappedFrom.refl _ _ b⟩
    fun i hhard x y blocks h =>
      ⟨h.1.tryPlace hhard x y, Objective.tryPlace_snapped h.2 hhard x y⟩
  have houtline : setup.objective.value q.layout .outline
      ≤ setup.objective.value p.layout .outline :=
    Objective.overflow_le_of_snapped hsnapped
  rw [hw, hh] at hsnapped
  refine ⟨q, hrun, ?_, houtline, ?_, ?_, hsnapped⟩
  · subst hdesign
    rw [Objective.blockedArea_design (d := design setup q) hblockages,
      Objective.blockedArea_design (d := design setup p) hblockages, Design.overlapArea_eq,
      Design.overlapArea_eq]
    exact haligned.conflictTotal_le
  · intro hstored
    have hnew : q.tally.raw.get .outline = setup.objective.value q.layout .outline := by
      rcases hq with rfl | ⟨-, htally, -⟩
      · exact hstored
      · rw [htally, Tally.measured, PerTerm.get_ofFn, Bool.true_or, if_pos rfl]
    refine ⟨hnew, ?_⟩
    rw [hnew, hstored]
    exact houtline
  · rcases hq with rfl | ⟨hpair, -⟩
    · rfl
    · exact hpair

/-- A hard block near the left edge, and a soft one that sticks out there. -/
def nearLeft (x : Rat) : Design Rat where
  outlineWidth := 10
  outlineHeight := 10
  blocks := [⟨"a", .hard 4 2 [.r0] .r0, x, 0, 4, 2, false⟩,
    ⟨"s", .soft [(2, 2)] 0, -1, 5, 2, 2, false⟩]

/-- The hard block is moved to the edge, and the soft one sticks out as far as before. -/
theorem align_noWorse_nearLeft :
    ∃ setup plan q, Setup.ofDesign (nearLeft 1) narrowGaps = .ok (setup, plan) ∧
      (align setup none none).run plan = .ok () q ∧ q.layout.blocks = (nearLeft 0).blocks ∧
      setup.objective.value plan.layout .outline = 1 ∧
      setup.objective.value q.layout .outline ≤ 1 := by
  obtain ⟨setup, plan, hmade, hblocks, hfits, houtline, halign⟩ :
      ∃ setup plan, Setup.ofDesign (nearLeft 1) narrowGaps = .ok (setup, plan) ∧
        plan.layout.blocks = (nearLeft 1).blocks ∧
        ¬ (setup.objective.outlineWidth < plan.layout.boundingSides.1 ∨
          setup.objective.outlineHeight < plan.layout.boundingSides.2) ∧
        setup.objective.value plan.layout .outline = 1 ∧
        setup.objective.align
          (Objective.defaultThreshold setup.objective.notchWidth setup.objective.outlineWidth 4 [])
          (Objective.defaultThreshold setup.objective.notchHeight
            setup.objective.outlineHeight 2 [])
          [0] (nearLeft 1).blocks = (nearLeft 0).blocks :=
    ⟨_, _, by with_unfolding_all rfl, rfl, by decide +kernel, by decide +kernel, by decide +kernel⟩
  obtain ⟨q, hrun, -, hvalue, -⟩ := align_noWorse hmade none none plan
  obtain ⟨q', hrun', hlayout, -⟩ :=
    run_align_of_fits (Setup.ofDesign_fair hmade) none none (p := plan)
    (by rw [hblocks]; rfl) hfits
  obtain ⟨-, rfl⟩ := EStateM.Result.ok.inj (hrun.symm.trans hrun')
  rw [houtline] at hvalue
  refine ⟨setup, plan, q, hmade, hrun, ?_, houtline, hvalue⟩
  rw [hlayout, hblocks]
  exact halign

end Plan

end BlockPlan
