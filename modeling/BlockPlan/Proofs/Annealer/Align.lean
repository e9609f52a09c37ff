import Mathlib
import BlockPlan.Annealer.Align
import BlockPlan.Proofs.Annealer.Setup
import BlockPlan.Proofs.Design.Overlap

/-!
# What aligning hard blocks does to overlaps

A block is only moved to where it shares no more area with the other blocks and the blockages, taken
together, than before.  So the area of all overlaps never grows; but a block that leaves a blockage
may come to lie on another block instead.

* `Objective.tryPlace_cases`, `Objective.align_keeps` — what a single step does, and what all steps
  keep that a single one keeps.
* `Objective.Aligned` — what aligning makes of blocks.
* `Plan.run_align_keeps`, `Plan.run_align`, `Plan.align_leads` — aligning a plan never fails, and
  what it keeps.
* **`Plan.align_overlap`** — blocks overlap more than before at most by the area by which the hard
  ones have left the blockages; if they lie on none, no overlap is ever created.
* `Plan.align_overlaps_wideAndNarrow` — a hard block that leaves a blockage and comes to lie on
  another one.
-/

namespace BlockPlan

/-- A block as it was, or a hard one moved to another point. -/
def Block.MovedFrom (b₀ b : Block Rat) : Prop :=
  b = b₀ ∨ b₀.isHard = true ∧ ∃ x y, b = b₀.place x y

namespace Objective

variable {o : Objective Rat} {blocks blocks₀ : List (Block Rat)} {i : Nat} {b : Block Rat}

/-! ## Conflicts of one block -/

/-- The entries of a list with their places, but for one place. -/
lemma filter_zipIdx_ne {β : Type} (xs : List β) (i k : Nat) :
    ((xs.zipIdx k).filter (·.2 != k + i)).map (·.1) = xs.eraseIdx i := by
  induction xs generalizing i k with
  | nil => rfl
  | cons x xs ih =>
      cases i with
      | zero =>
          have hlater : ∀ e ∈ xs.zipIdx (k + 1), (e.2 != k + 0) = true := by
            intro e he
            have := List.le_snd_of_mem_zipIdx he
            exact bne_iff_ne.mpr (by omega)
          rw [List.zipIdx_cons, List.filter_cons_of_neg (by simp), List.filter_eq_self.mpr hlater,
            List.zipIdx_map_fst, List.eraseIdx_cons_zero]
      | succ i =>
          rw [List.zipIdx_cons, List.filter_cons_of_pos (by simp), List.map_cons,
            List.eraseIdx_cons_succ, ← ih i (k + 1), Nat.add_right_comm, Nat.add_assoc]

/-- What a block shares with all others and with the blockages. -/
lemma conflict_eq (o : Objective Rat) (blocks : List (Block Rat)) (i : Nat) (b : Block Rat) :
    o.conflict blocks i b = ((blocks.eraseIdx i).map fun c => b.box.overlap c.box).sum
      + (o.blockages.map b.box.overlap).sum := by
  rw [conflict, Scalar.sum_eq, Scalar.sum_eq, ← filter_zipIdx_ne blocks i 0, List.map_map]
  simp only [Nat.zero_add]
  rfl

/-- **All overlaps are those of one block and those of all others.** -/
theorem conflictTotal_eq (hb : blocks[i]? = some b) :
    o.conflictTotal blocks = o.conflict blocks i b + o.conflictTotal (blocks.eraseIdx i) := by
  obtain ⟨hlt, rfl⟩ := List.getElem?_eq_some_iff.mp hb
  rw [← conflictTotal_perm o (List.getElem_cons_eraseIdx_perm hlt), conflictTotal_cons, conflict_eq]

/-- What a block shares with the others does not depend on where it stood before. -/
lemma conflict_set (o : Objective Rat) (blocks : List (Block Rat)) (i : Nat) (b c : Block Rat) :
    o.conflict (blocks.set i c) i b = o.conflict blocks i b := by
  rw [conflict_eq, conflict_eq, List.eraseIdx_set_eq]

/-! ## A single step -/

/-- A block is left where it is, or it is moved to where it lies in the outline and does not
conflict more. -/
lemma tryPlace_cases (o : Objective Rat) (i : Nat) (x y : Rat) (blocks : List (Block Rat)) :
    o.tryPlace i x y blocks = blocks ∨ ∃ b, blocks[i]? = some b ∧
      (b.place x y).isInside o.outlineWidth o.outlineHeight = true ∧
      o.conflict blocks i (b.place x y) ≤ o.conflict blocks i b ∧
      o.tryPlace i x y blocks = blocks.set i (b.place x y) := by
  rw [tryPlace]
  cases hb : blocks[i]? with
  | none => exact Or.inl rfl
  | some b =>
      simp only [Bool.and_eq_true, decide_eq_true_eq]
      split_ifs with h
      · exact Or.inr ⟨b, rfl, h.1, h.2, rfl⟩
      · exact Or.inl rfl

/-! ## All steps -/

section Keeps

variable {P : List (Block Rat) → Prop}

lemma snap_keeps (hstep : ∀ x y blocks, P blocks → P (o.tryPlace i x y blocks)) (axis : Axis)
    (target? : Block Rat → Option Rat) (h : P blocks) : P (o.snap axis i target? blocks) := by
  rw [snap]
  split
  · exact h
  · split
    · exact hstep _ _ _ h
    · exact h

lemma snapToBlock_keeps (hstep : ∀ x y blocks, P blocks → P (o.tryPlace i x y blocks))
    (width height : Rat) (reference : Nat) (h : P blocks) :
    P (o.snapToBlock width height reference blocks i) := by
  rw [snapToBlock]
  split
  · exact h
  · exact snap_keeps hstep .y _ (snap_keeps hstep .x _ h)

lemma snapPairs_keeps (width height : Rat) {hard : List Nat}
    (hstep : ∀ i ∈ hard, ∀ x y blocks, P blocks → P (o.tryPlace i x y blocks)) (h : P blocks) :
    P (o.snapPairs width height hard blocks) := by
  induction hard generalizing blocks with
  | nil => exact h
  | cons reference rest ih =>
      refine ih (fun i hi => hstep i (List.mem_cons_of_mem _ hi)) ?_
      refine List.foldlRecOn rest _ h fun blocks hblocks i hi => ?_
      exact snapToBlock_keeps (hstep i (List.mem_cons_of_mem _ hi)) width height reference hblocks

/-- **Whatever placing a hard block keeps, aligning all of them keeps.** -/
theorem align_keeps (width height : Rat) {hard : List Nat}
    (hstep : ∀ i ∈ hard, ∀ x y blocks, P blocks → P (o.tryPlace i x y blocks)) (h : P blocks) :
    P (o.align width height hard blocks) := by
  refine snapPairs_keeps width height hstep (List.foldlRecOn hard _ h fun blocks hblocks i hi => ?_)
  exact snap_keeps (hstep i hi) .y _ (snap_keeps (hstep i hi) .x _ hblocks)

end Keeps

/-- What aligning makes of blocks: hard ones are moved, and the area of all
overlaps does not grow. -/
structure Aligned (o : Objective Rat) (blocks₀ blocks : List (Block Rat)) : Prop where
  moved : List.Forall₂ Block.MovedFrom blocks₀ blocks
  conflictTotal_le : o.conflictTotal blocks ≤ o.conflictTotal blocks₀

lemma Aligned.refl (o : Objective Rat) (blocks : List (Block Rat)) : o.Aligned blocks blocks :=
  ⟨List.forall₂_same.mpr fun _ _ => Or.inl rfl, le_rfl⟩

lemma forall₂_set {β γ : Type} {R : β → γ → Prop} {xs : List β} {ys : List γ}
    (h : List.Forall₂ R xs ys) {i : Nat} {y : γ} (hy : ∀ x, xs[i]? = some x → R x y) :
    List.Forall₂ R xs (ys.set i y) := by
  induction h generalizing i with
  | nil => exact .nil
  | cons hxy hrest ih =>
      cases i with
      | zero => exact .cons (hy _ rfl) hrest
      | succ i => exact .cons hxy (ih hy)

/-- Placing a hard block keeps blocks aligned. -/
lemma Aligned.tryPlace (h : o.Aligned blocks₀ blocks)
    (hhard : ∃ b₀, blocks₀[i]? = some b₀ ∧ b₀.isHard) (x y : Rat) :
    o.Aligned blocks₀ (o.tryPlace i x y blocks) := by
  rcases o.tryPlace_cases i x y blocks with hsame | ⟨b, hb, -, hle, hset⟩
  · rwa [hsame]
  · rw [hset]
    obtain ⟨b₀, hb₀, hb₀hard⟩ := hhard
    obtain ⟨hlt, rfl⟩ := List.getElem?_eq_some_iff.mp hb
    obtain ⟨hlt₀, rfl⟩ := List.getElem?_eq_some_iff.mp hb₀
    refine ⟨forall₂_set h.moved fun c hc => Or.inr ?_, ?_⟩
    · rw [List.getElem?_eq_getElem hlt₀, Option.some.injEq] at hc
      subst hc
      rcases h.moved.get hlt₀ hlt with hsame | ⟨-, x', y', hplaced⟩
      · exact ⟨hb₀hard, x, y, congrArg (Block.place x y) hsame⟩
      · refine ⟨hb₀hard, x, y, ?_⟩
        rw [show blocks[i] = _ from hplaced]
        rfl
    · have hset : (blocks.set i (blocks[i].place x y))[i]? = some (blocks[i].place x y) :=
        List.getElem?_set_self hlt
      refine le_trans ?_ h.conflictTotal_le
      rw [conflictTotal_eq hset, conflictTotal_eq hb, conflict_set, List.eraseIdx_set_eq]
      exact add_le_add_left hle _

/-! ## What is left alone -/

/-- The area that blocks share with blockages is that of the hard ones and that of the soft ones. -/
lemma blockedArea_filter (o : Objective Rat) (blocks : List (Block Rat)) :
    o.blockedArea blocks
      = o.blockedArea (blocks.filter Block.isHard)
        + o.blockedArea (blocks.filter Block.isSoft) := by
  induction blocks with
  | nil => exact (add_zero (0 : Rat)).symm
  | cons b blocks ih =>
      cases hb : b.isHard with
      | true =>
          rw [List.filter_cons_of_pos hb, List.filter_cons_of_neg (by simp [Block.isSoft, hb]),
            blockedArea_cons, blockedArea_cons, ih, add_assoc]
      | false =>
          rw [List.filter_cons_of_neg (by simp [hb]),
            List.filter_cons_of_pos (by simp [Block.isSoft, hb]), blockedArea_cons,
            blockedArea_cons, ih, add_left_comm]

lemma Aligned.filter_isSoft (h : o.Aligned blocks₀ blocks) :
    blocks.filter Block.isSoft = blocks₀.filter Block.isSoft := by
  obtain ⟨hmoved, -⟩ := h
  induction hmoved with
  | nil => rfl
  | @cons b _ _ _ hb _ ih =>
      rcases hb with rfl | ⟨hhard, x, y, rfl⟩
      · rw [List.filter_cons, List.filter_cons, ih]
      · have hsoft : ¬ b.isSoft = true := by simp [Block.isSoft, hhard]
        have hplaced : ¬ (b.place x y).isSoft = true := hsoft
        rw [List.filter_cons_of_neg hsoft, List.filter_cons_of_neg hplaced, ih]

end Objective

namespace Plan

variable {setup : Setup Rat}

/-- Aligning the blocks of a plan that fits the outline, at least one of which is hard. -/
lemma run_align_of_fits (hsetup : setup.Fair) (h? v? : Option Rat) {p : Plan Rat} {b : Block Rat}
    {rest : List (Block Rat)}
    (hhard : (p.layout.blocks.zipIdx.filter (·.1.isHard)).map (·.1) = b :: rest)
    (hfits : ¬ (setup.objective.outlineWidth < p.layout.boundingSides.1 ∨
      setup.objective.outlineHeight < p.layout.boundingSides.2)) :
    ∃ q, (align setup h? v?).run p = .ok () q ∧
      q.layout = { p.layout with
        blocks := setup.objective.align
          (h?.getD (Objective.defaultThreshold setup.objective.notchWidth
            setup.objective.outlineWidth
            b.width (rest.map (·.width))))
          (v?.getD (Objective.defaultThreshold setup.objective.notchHeight
            setup.objective.outlineHeight
            b.height (rest.map (·.height))))
          ((p.layout.blocks.zipIdx.filter (·.1.isHard)).map (·.2)) p.layout.blocks } ∧
      q.tally = p.tally.measured setup.objective true q.layout ∧ q.lastMove = none := by
  simp only [align, EStateM.run_bind, EStateM.run_get, hhard, if_neg hfits, onLayout,
    Edit.run_within, EStateM.run_modify, run_evaluate hsetup, forget]
  exact ⟨_, rfl, rfl, rfl, rfl⟩

/-- **Whatever placing a hard block keeps, aligning a plan keeps.**  It never fails, and leaves the
plan as it is or aligns its hard blocks and measures all terms. -/
theorem run_align_keeps (hsetup : setup.Fair) (h? v? : Option Rat) {p : Plan Rat}
    {P : List (Block Rat) → Prop} (hkept : P p.layout.blocks)
    (hstep : ∀ i, (∃ b, p.layout.blocks[i]? = some b ∧ b.isHard = true) →
      ∀ x y blocks, P blocks → P (setup.objective.tryPlace i x y blocks)) :
    ∃ q, (align setup h? v?).run p = .ok () q ∧ P q.layout.blocks ∧
      (q = p ∨ q.layout.pair = p.layout.pair ∧
        q.tally = p.tally.measured setup.objective true q.layout ∧ q.lastMove = none) := by
  have hsame : (align setup h? v?).run p = .ok () p →
      ∃ q, (align setup h? v?).run p = .ok () q ∧ P q.layout.blocks ∧
        (q = p ∨ q.layout.pair = p.layout.pair ∧
          q.tally = p.tally.measured setup.objective true q.layout ∧ q.lastMove = none) :=
    fun hrun => ⟨p, hrun, hkept, Or.inl rfl⟩
  cases hhard : (p.layout.blocks.zipIdx.filter (·.1.isHard)).map (·.1) with
  | nil =>
      refine hsame ?_
      simp only [align, EStateM.run_bind, EStateM.run_get, hhard, EStateM.run_pure]
  | cons b rest =>
      by_cases hfits : setup.objective.outlineWidth < p.layout.boundingSides.1 ∨
          setup.objective.outlineHeight < p.layout.boundingSides.2
      · refine hsame ?_
        simp only [align, EStateM.run_bind, EStateM.run_get, hhard, if_pos hfits, EStateM.run_pure]
      · obtain ⟨q, hrun, hlayout, htally, hlast⟩ := run_align_of_fits hsetup h? v? hhard hfits
        refine ⟨q, hrun, ?_, Or.inr ⟨by rw [hlayout], htally, hlast⟩⟩
        rw [hlayout]
        refine Objective.align_keeps _ _ (fun i hi => hstep i ?_) hkept
        obtain ⟨⟨c, j⟩, hc, rfl⟩ := List.mem_map.mp hi
        obtain ⟨hmem, hhard⟩ := List.mem_filter.mp hc
        exact ⟨c, List.mk_mem_zipIdx_iff_getElem?.mp hmem, hhard⟩

/-- **Aligning a plan never fails**, and aligns its blocks. -/
theorem run_align (hsetup : setup.Fair) (h? v? : Option Rat) (p : Plan Rat) :
    ∃ q, (align setup h? v?).run p = .ok () q ∧
      setup.objective.Aligned p.layout.blocks q.layout.blocks ∧
      (q = p ∨ q.layout.pair = p.layout.pair ∧
        q.tally = p.tally.measured setup.objective true q.layout ∧ q.lastMove = none) :=
  run_align_keeps hsetup h? v? (Objective.Aligned.refl setup.objective p.layout.blocks)
    fun _ hhard x y _ haligned => haligned.tryPlace hhard x y

/-- Aligning keeps of a plan what is kept when hard blocks are moved, the terms are measured and the
last move is forgotten. -/
lemma align_leads (hsetup : setup.Fair) (h? v? : Option Rat) {I : Plan Rat → Prop}
    (hI : ∀ p q : Plan Rat, I p → q.layout.pair = p.layout.pair →
      List.Forall₂ Block.MovedFrom p.layout.blocks q.layout.blocks →
      q.tally = p.tally.measured setup.objective true q.layout → q.lastMove = none → I q) :
    Edit.Leads I (align setup h? v?) (fun _ => I) (fun _ => False) := by
  refine Edit.Leads.of_ok fun p hp => ?_
  obtain ⟨q, hrun, haligned, hq⟩ := run_align hsetup h? v? p
  refine ⟨(), q, hrun, ?_⟩
  rcases hq with rfl | ⟨hpair, htally, hlast⟩
  · exact hp
  · exact hI p q hp hpair haligned.moved htally hlast

/-- **Blocks overlap more after aligning at most by the area by which the hard ones have left the
blockages.**  If these lie on none, and no two blocks overlap, then no two blocks overlap
afterwards. -/
theorem align_overlap {d : Design Rat} {settings : Settings Rat} {plan : Plan Rat}
    (hmade : Setup.ofDesign d settings = .ok (setup, plan)) (h? v? : Option Rat) (p : Plan Rat) :
    ∃ q, (align setup h? v?).run p = .ok () q ∧
      (q.design setup).overlapArea + setup.objective.blockedArea
        (q.layout.blocks.filter Block.isHard)
        ≤ (p.design setup).overlapArea
          + setup.objective.blockedArea (p.layout.blocks.filter Block.isHard) ∧
      ((∀ (i j : Nat) (b c : Block Rat), i ≠ j → p.layout.blocks[i]? = some b →
          p.layout.blocks[j]? = some c → b.box.overlap c.box = 0) →
        (∀ b ∈ p.layout.blocks, b.isHard = true →
          ∀ r ∈ setup.objective.blockages, b.box.overlap r = 0) →
        ∀ (i j : Nat) (b c : Block Rat), i ≠ j → q.layout.blocks[i]? = some b →
          q.layout.blocks[j]? = some c → b.box.overlap c.box = 0) := by
  obtain ⟨q, hrun, haligned, -⟩ := run_align (Setup.ofDesign_fair hmade) h? v? p
  have hle : (q.design setup).overlapArea
      + setup.objective.blockedArea (q.layout.blocks.filter Block.isHard)
        ≤ (p.design setup).overlapArea
          + setup.objective.blockedArea (p.layout.blocks.filter Block.isHard) := by
    have htotal := haligned.conflictTotal_le
    rw [Objective.conflictTotal, Objective.conflictTotal,
      Objective.blockedArea_filter _ q.layout.blocks,
      Objective.blockedArea_filter _ p.layout.blocks, haligned.filter_isSoft] at htotal
    rw [Design.overlapArea_eq, Design.overlapArea_eq]
    simp only [design]
    linarith
  refine ⟨q, hrun, hle, fun hapart hfree => ?_⟩
  have hnone : (p.design setup).overlapArea = 0 := Design.overlapArea_eq_zero_iff.mpr hapart
  have hclear : setup.objective.blockedArea (p.layout.blocks.filter Block.isHard) = 0 :=
    Objective.blockedArea_eq_zero fun b hb =>
      hfree b (List.mem_filter.mp hb).1 (List.mem_filter.mp hb).2
  rw [hnone, hclear, add_zero] at hle
  have hblocked := setup.objective.blockedArea_nonneg (q.layout.blocks.filter Block.isHard)
  have hzero : (q.design setup).overlapArea = 0 :=
    le_antisymm (by linarith) (Design.overlapArea_nonneg _)
  exact Design.overlapArea_eq_zero_iff.mp hzero

/-- A wide block at `x`, with a narrow one in the room that it leaves at the left edge. -/
def wideAndNarrow (x : Rat) (blockages : List (Rect Rat)) : Design Rat where
  outlineWidth := 10
  outlineHeight := 10
  blocks := [⟨"a", .hard 9 2 [.r0] .r0, x, 0, 9, 2, false⟩,
    ⟨"b", .hard 1 2 [.r0] .r0, 9, 0, 1, 2, false⟩]
  blockages := blockages

/-- A gap of one counts as a notch. -/
def narrowGaps : Settings Rat := { notchWidth := 1, notchHeight := 1 }

lemma wideAndNarrow_apart (blockages : List (Rect Rat)) :
    ∀ (i j : Nat) (b c : Block Rat), i ≠ j → (wideAndNarrow 0 blockages).blocks[i]? = some b →
      (wideAndNarrow 0 blockages).blocks[j]? = some c → b.box.overlap c.box = 0 :=
  Design.overlapArea_eq_zero_iff.mp
    (show (wideAndNarrow 0 []).overlapArea = 0 by decide +kernel)

/-- Without blockages the wide block stays beside the narrow one. -/
theorem align_overlap_wideAndNarrow :
    ∃ setup plan q, Setup.ofDesign (wideAndNarrow 0 []) narrowGaps = .ok (setup, plan) ∧
      plan.layout.blocks = (wideAndNarrow 0 []).blocks ∧
      (align setup none none).run plan = .ok () q ∧
      ∀ (i j : Nat) (b c : Block Rat), i ≠ j → q.layout.blocks[i]? = some b →
        q.layout.blocks[j]? = some c → b.box.overlap c.box = 0 := by
  obtain ⟨setup, plan, hmade, hblocks, hnone⟩ :
      ∃ setup plan, Setup.ofDesign (wideAndNarrow 0 []) narrowGaps = .ok (setup, plan) ∧
        plan.layout.blocks = (wideAndNarrow 0 []).blocks ∧ setup.objective.blockages = [] :=
    ⟨_, _, by with_unfolding_all rfl, rfl, rfl⟩
  obtain ⟨q, hrun, -, hapart⟩ := align_overlap hmade none none plan
  refine ⟨setup, plan, q, hmade, hblocks, hrun, hapart ?_ (by simp [hnone])⟩
  rw [hblocks]
  exact wideAndNarrow_apart []

/-- **A block that leaves a blockage may come to lie on another block.**  The wide block moves off a
blockage at the left edge, onto the narrow one at the right edge: it conflicts no more than before,
but two blocks overlap that did not. -/
theorem align_overlaps_wideAndNarrow :
    ∃ setup plan q, Setup.ofDesign (wideAndNarrow 0 [⟨0, 0, 1, 2⟩]) narrowGaps = .ok (setup, plan) ∧
      (∀ (i j : Nat) (b c : Block Rat), i ≠ j → plan.layout.blocks[i]? = some b →
        plan.layout.blocks[j]? = some c → b.box.overlap c.box = 0) ∧
      (align setup none none).run plan = .ok () q ∧
      ∃ b c, q.layout.blocks[0]? = some b ∧ q.layout.blocks[1]? = some c ∧
        b.box.overlap c.box = 2 := by
  obtain ⟨setup, plan, hmade, hblocks, hsides, halign⟩ :
      ∃ setup plan, Setup.ofDesign (wideAndNarrow 0 [⟨0, 0, 1, 2⟩]) narrowGaps = .ok (setup, plan) ∧
        plan.layout.blocks = (wideAndNarrow 0 []).blocks ∧
        ¬ (setup.objective.outlineWidth < plan.layout.boundingSides.1 ∨
          setup.objective.outlineHeight < plan.layout.boundingSides.2) ∧
        setup.objective.align
          (Objective.defaultThreshold setup.objective.notchWidth setup.objective.outlineWidth 9 [1])
          (Objective.defaultThreshold setup.objective.notchHeight
            setup.objective.outlineHeight 2 [2])
          [0, 1] (wideAndNarrow 0 []).blocks = (wideAndNarrow 1 []).blocks :=
    ⟨_, _, by with_unfolding_all rfl, rfl, by decide +kernel, by decide +kernel⟩
  obtain ⟨q, hrun, hlayout, -⟩ :=
    run_align_of_fits (Setup.ofDesign_fair hmade) none none (p := plan)
    (by rw [hblocks]; rfl) hsides
  have hmoved : q.layout.blocks = (wideAndNarrow 1 []).blocks := by
    rw [hlayout, hblocks]
    exact halign
  refine ⟨setup, plan, q, hmade, ?_, hrun, ?_⟩
  · rw [hblocks]
    exact wideAndNarrow_apart []
  · rw [hmoved]
    exact ⟨_, _, rfl, rfl, by decide +kernel⟩

end Plan

end BlockPlan
