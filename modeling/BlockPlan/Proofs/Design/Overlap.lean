import Mathlib
import BlockPlan.Cost.Objective
import BlockPlan.Proofs.Scalar.Exact

/-!
# Overlap in exact arithmetic

The overlap of two boxes is the product of the lengths that they share along either axis.  How much
the blocks of a design overlap each other does not depend on their order, so that any block can be
looked at as if it were the first one.

* `Box.shared`, `Box.overlap_eq` — the overlap as a product of shared lengths.
* `Box.shared_add` — what a span shares that is cut in two.
* `Box.Covers` — a box that contains another one.
* `sum_pairs_perm` — what is summed over all pairs does not depend on the order.
* **`Design.overlapArea_eq_zero_iff`** — a design has no overlap exactly if no two blocks overlap.
* `Objective.conflictTotal` — the area of all overlaps, of blocks with each other and with
  blockages.
* **`Objective.conflictTotal_perm`** — it does not depend on the order of the blocks.
-/

namespace BlockPlan

namespace Box

/-- The length that two spans have in common. -/
def shared (lo hi lo' hi' : Rat) : Rat := max 0 (min hi hi' - max lo lo')

lemma shared_nonneg (lo hi lo' hi' : Rat) : 0 ≤ shared lo hi lo' hi' := le_max_left _ _

lemma shared_comm (lo hi lo' hi' : Rat) : shared lo hi lo' hi' = shared lo' hi' lo hi := by
  rw [shared, shared, min_comm, max_comm lo]

/-- A span without length shares nothing. -/
lemma shared_eq_zero_of_ge {lo hi lo' hi' : Rat} (h : hi ≤ lo) : shared lo hi lo' hi' = 0 := by
  refine max_eq_left (sub_nonpos.mpr ?_)
  exact (min_le_left hi hi').trans (h.trans (le_max_left lo lo'))

/-- Spans that only touch share nothing. -/
lemma shared_eq_zero_of_le {lo hi lo' hi' : Rat} (h : hi ≤ lo') : shared lo hi lo' hi' = 0 := by
  refine max_eq_left (sub_nonpos.mpr ?_)
  exact (min_le_left hi hi').trans (h.trans (le_max_right lo lo'))

/-- A span that is cut in two shares what its parts share. -/
lemma shared_add {lo mid hi lo' hi' : Rat} (hlo : lo ≤ mid) (hhi : mid ≤ hi) :
    shared lo mid lo' hi' + shared mid hi lo' hi' = shared lo hi lo' hi' := by
  rcases le_total hi' mid with hbefore | hbehind
  · rw [shared_comm mid, shared_eq_zero_of_le hbefore, add_zero, shared, shared,
      min_eq_right hbefore, min_eq_right (hbefore.trans hhi)]
  rcases le_total mid lo' with hfrom | hupto
  · rw [shared_eq_zero_of_le hfrom, zero_add, shared, shared, max_eq_right hfrom,
      max_eq_right (hlo.trans hfrom)]
  · -- the cut lies inside the other span
    rw [shared, shared, shared, min_eq_left hbehind, max_eq_left hupto,
      max_eq_right (sub_nonneg.mpr (max_le hlo hupto)),
      max_eq_right (sub_nonneg.mpr (le_min hhi hbehind)),
      max_eq_right (sub_nonneg.mpr ((max_le hlo hupto).trans (le_min hhi hbehind)))]
    ring

/-- **The overlap of two boxes is the product of the lengths that they share.** -/
theorem overlap_eq (a b : Box Rat) :
    a.overlap b = shared a.xMin a.xMax b.xMin b.xMax * shared a.yMin a.yMax b.yMin b.yMax := by
  simp only [overlap, shared, Scalar.smaller_eq_min, Scalar.larger_eq_max]
  split_ifs with h
  · rcases h with hx | hy
    · rw [max_eq_left hx, zero_mul]
    · rw [max_eq_left hy, mul_zero]
  · push Not at h
    rw [max_eq_right h.1.le, max_eq_right h.2.le]

lemma overlap_nonneg (a b : Box Rat) : 0 ≤ a.overlap b := by
  rw [overlap_eq]
  exact mul_nonneg (shared_nonneg _ _ _ _) (shared_nonneg _ _ _ _)

lemma overlap_comm (a b : Box Rat) : a.overlap b = b.overlap a := by
  rw [overlap_eq, overlap_eq, shared_comm, shared_comm a.yMin]

/-- A box that contains another one. -/
structure Covers (a b : Box Rat) : Prop where
  xMin : a.xMin ≤ b.xMin
  yMin : a.yMin ≤ b.yMin
  xMax : b.xMax ≤ a.xMax
  yMax : b.yMax ≤ a.yMax

lemma Covers.refl (a : Box Rat) : a.Covers a := ⟨le_rfl, le_rfl, le_rfl, le_rfl⟩

lemma Covers.trans {a b c : Box Rat} (h : a.Covers b) (h' : b.Covers c) : a.Covers c :=
  ⟨h.xMin.trans h'.xMin, h.yMin.trans h'.yMin, h'.xMax.trans h.xMax, h'.yMax.trans h.yMax⟩

/-- A longer span shares no less. -/
lemma shared_mono {lo hi lo' hi' : Rat} (hlo : lo' ≤ lo) (hhi : hi ≤ hi') (s e : Rat) :
    shared lo hi s e ≤ shared lo' hi' s e :=
  max_le_max le_rfl (sub_le_sub (min_le_min hhi le_rfl) (max_le_max hlo le_rfl))

/-- A box that contains another one shares no less with any third. -/
lemma Covers.overlap_le {a b : Box Rat} (h : a.Covers b) (r : Box Rat) :
    b.overlap r ≤ a.overlap r := by
  rw [overlap_eq, overlap_eq]
  exact mul_le_mul (shared_mono h.xMin h.xMax _ _) (shared_mono h.yMin h.yMax _ _)
    (shared_nonneg _ _ _ _) (shared_nonneg _ _ _ _)

/-- No span shares more than its length. -/
lemma shared_le {lo hi : Rat} (hle : lo ≤ hi) (lo' hi' : Rat) : shared lo hi lo' hi' ≤ hi - lo :=
  max_le (sub_nonneg.mpr hle) (sub_le_sub (min_le_left _ _) (le_max_left _ _))

/-- A span inside another one shares all of its length. -/
lemma shared_eq_of_inside {lo hi lo' hi' : Rat} (hlo : lo' ≤ lo) (hle : lo ≤ hi) (hhi : hi ≤ hi') :
    shared lo hi lo' hi' = hi - lo := by
  rw [shared, min_eq_left hhi, max_eq_left hlo, max_eq_right (sub_nonneg.mpr hle)]

end Box

lemma Block.isInside_iff {width height : Rat} {b : Block Rat} : b.isInside width height = true ↔
    0 ≤ b.box.xMin ∧ 0 ≤ b.box.yMin ∧ b.box.xMax ≤ width ∧ b.box.yMax ≤ height := by
  simp only [isInside, box, Bool.and_eq_true, decide_eq_true_eq, and_assoc]

/-! ## Sums over pairs -/

namespace Design

variable {β : Type}

lemma mem_pairs {β : Type} {xs : List β} {x y : β} (h : (x, y) ∈ pairs xs) :
    ∃ i j : Nat, i ≠ j ∧ xs[i]? = some x ∧ xs[j]? = some y := by
  induction xs with
  | nil => simp [pairs] at h
  | cons z rest ih =>
      rw [pairs, List.mem_append] at h
      rcases h with h | h
      · obtain ⟨w, hw, hzw⟩ := List.mem_map.mp h
        rw [Prod.mk.injEq] at hzw
        obtain ⟨rfl, rfl⟩ := hzw
        obtain ⟨j, hj⟩ := List.mem_iff_getElem?.mp hw
        refine ⟨0, j + 1, by omega, rfl, ?_⟩
        rw [List.getElem?_cons_succ, hj]
      · obtain ⟨i, j, hne, hi, hj⟩ := ih h
        refine ⟨i + 1, j + 1, by omega, ?_, ?_⟩
        · rw [List.getElem?_cons_succ, hi]
        · rw [List.getElem?_cons_succ, hj]

/-- What is summed over all pairs does not depend on the order. -/
lemma sum_pairs_perm {f : β → β → Rat} (hf : ∀ x y, f x y = f y x) {xs ys : List β}
    (h : xs.Perm ys) :
    ((pairs xs).map fun p => f p.1 p.2).sum = ((pairs ys).map fun p => f p.1 p.2).sum := by
  induction h with
  | nil => rfl
  | cons x h ih =>
      simp only [pairs, List.map_append, List.map_map, List.sum_append, ih, Function.comp_def]
      rw [(h.map _).sum_eq]
  | swap x y l =>
      simp only [pairs, List.map_cons, List.map_append, List.map_map, List.sum_append,
        List.sum_cons, Function.comp_def, hf y x]
      ring
  | trans _ _ ih ih' => exact ih.trans ih'

lemma pairs_map {γ : Type} (g : β → γ) (xs : List β) :
    pairs (xs.map g) = (pairs xs).map fun p => (g p.1, g p.2) := by
  induction xs with
  | nil => rfl
  | cons x xs ih =>
      simp only [List.map_cons, pairs, List.map_append, List.map_map, ih, Function.comp_def]

lemma mem_pairs_of_lt {xs : List β} {i j : Nat} {x y : β} (hlt : i < j) (hx : xs[i]? = some x)
    (hy : xs[j]? = some y) : (x, y) ∈ pairs xs := by
  induction xs generalizing i j with
  | nil => simp at hx
  | cons z rest ih =>
      obtain ⟨j, rfl⟩ : ∃ k, j = k + 1 := ⟨j - 1, by omega⟩
      rw [List.getElem?_cons_succ] at hy
      rw [pairs, List.mem_append]
      cases i with
      | zero =>
          rw [List.getElem?_cons_zero, Option.some.injEq] at hx
          exact Or.inl (hx ▸ List.mem_map_of_mem (List.mem_of_getElem? hy))
      | succ i =>
          rw [List.getElem?_cons_succ] at hx
          exact Or.inr (ih (by omega) hx hy)

/-- What is summed over all pairs is zero exactly if every two entries add nothing to it. -/
lemma sum_pairs_eq_zero_iff {f : β → β → Rat} (hf : ∀ x y, f x y = f y x)
    (hnonneg : ∀ x y, 0 ≤ f x y) {xs : List β} : ((pairs xs).map fun p => f p.1 p.2).sum = 0 ↔
      ∀ (i j : Nat) (x y : β), i ≠ j → xs[i]? = some x → xs[j]? = some y → f x y = 0 := by
  constructor
  · intro hsum
    have hzero : ∀ p ∈ pairs xs, f p.1 p.2 = 0 :=
      (sum_map_eq_zero_iff fun p _ => hnonneg p.1 p.2).mp hsum
    intro i j x y hne hx hy
    rcases hne.lt_or_gt with hlt | hlt
    · exact hzero (x, y) (mem_pairs_of_lt hlt hx hy)
    · exact (hf x y).trans (hzero (y, x) (mem_pairs_of_lt hlt hy hx))
  · intro h
    refine List.sum_eq_zero fun a ha => ?_
    obtain ⟨⟨x, y⟩, hp, rfl⟩ := List.mem_map.mp ha
    obtain ⟨i, j, hne, hi, hj⟩ := mem_pairs hp
    exact h i j x y hne hi hj

/-- The area of all overlaps of blocks, summed over the blocks themselves. -/
lemma overlapArea_eq (d : Design Rat) :
    d.overlapArea = ((pairs d.blocks).map fun p => p.1.box.overlap p.2.box).sum := by
  rw [overlapArea, Scalar.sum_eq, pairs_map, List.map_map]
  rfl

lemma overlapArea_nonneg (d : Design Rat) : 0 ≤ d.overlapArea := by
  rw [overlapArea_eq]
  refine List.sum_nonneg fun area harea => ?_
  obtain ⟨p, -, rfl⟩ := List.mem_map.mp harea
  exact Box.overlap_nonneg _ _

/-- **A design has no overlap exactly if no two blocks overlap.** -/
theorem overlapArea_eq_zero_iff {d : Design Rat} : d.overlapArea = 0 ↔
    ∀ (i j : Nat) (b c : Block Rat), i ≠ j → d.blocks[i]? = some b → d.blocks[j]? = some c →
      b.box.overlap c.box = 0 := by
  rw [overlapArea_eq]
  exact sum_pairs_eq_zero_iff (f := fun b c : Block Rat => b.box.overlap c.box)
    (fun b c => Box.overlap_comm b.box c.box) fun b c => Box.overlap_nonneg b.box c.box

end Design

/-! ## Conflicts -/

namespace Objective

/-- The area of the overlaps of blocks with each other and with blockages. -/
def conflictTotal (o : Objective Rat) (blocks : List (Block Rat)) : Rat :=
  ((Design.pairs blocks).map fun p => p.1.box.overlap p.2.box).sum + o.blockedArea blocks

lemma blockedArea_nonneg (o : Objective Rat) (blocks : List (Block Rat)) :
    0 ≤ o.blockedArea blocks := by
  rw [blockedArea, Scalar.sum_eq]
  refine List.sum_nonneg fun area harea => ?_
  obtain ⟨b, -, hb⟩ := List.mem_flatMap.mp harea
  obtain ⟨r, -, rfl⟩ := List.mem_map.mp hb
  exact Box.overlap_nonneg _ _

/-- No area is blocked exactly if no block overlaps a blockage. -/
lemma blockedArea_eq_zero_iff {o : Objective Rat} {blocks : List (Block Rat)} :
    o.blockedArea blocks = 0 ↔ ∀ b ∈ blocks, ∀ r ∈ o.blockages, b.box.overlap r = 0 := by
  have hpairs : (blocks.flatMap fun b => o.blockages.map fun r => b.box.overlap r)
      = (blocks.product o.blockages).map fun p => p.1.box.overlap p.2 := by
    simp only [List.product, List.map_flatMap, List.map_map, Function.comp_def]
  rw [blockedArea, Scalar.sum_eq, hpairs, sum_map_eq_zero_iff fun p _ => Box.overlap_nonneg _ _]
  constructor
  · exact fun h b hb r hr => h (b, r) (List.mem_product.mpr ⟨hb, hr⟩)
  · rintro h ⟨b, r⟩ hp
    exact h b (List.mem_product.mp hp).1 r (List.mem_product.mp hp).2

lemma blockedArea_eq_zero {o : Objective Rat} {blocks : List (Block Rat)}
    (h : ∀ b ∈ blocks, ∀ r ∈ o.blockages, b.box.overlap r = 0) : o.blockedArea blocks = 0 :=
  blockedArea_eq_zero_iff.mpr h

lemma blockedArea_cons (o : Objective Rat) (b : Block Rat) (blocks : List (Block Rat)) :
    o.blockedArea (b :: blocks) = (o.blockages.map b.box.overlap).sum + o.blockedArea blocks := by
  rw [blockedArea, blockedArea, Scalar.sum_eq, Scalar.sum_eq, List.flatMap_cons, List.sum_append]

/-- The area of blocks on blockages is the same whether it is asked of a design
or of its objective. -/
lemma blockedArea_design {o : Objective Rat} {d : Design Rat}
    (h : o.blockages = d.blockages.map Rect.box) : d.blockedArea = o.blockedArea d.blocks := by
  rw [Design.blockedArea, blockedArea, h]
  simp only [List.map_map, Function.comp_def]

/-- **The area of all overlaps does not depend on the order of the blocks.** -/
theorem conflictTotal_perm (o : Objective Rat) {blocks blocks' : List (Block Rat)}
    (h : blocks.Perm blocks') : o.conflictTotal blocks = o.conflictTotal blocks' := by
  rw [conflictTotal, conflictTotal, blockedArea, blockedArea, Scalar.sum_eq, Scalar.sum_eq,
    (h.flatMap_right _).sum_eq]
  exact congrArg (· + _)
    (Design.sum_pairs_perm (f := fun b c : Block Rat => b.box.overlap c.box)
      (fun b c => Box.overlap_comm b.box c.box) h)

/-- The first block is one that all others can be compared with. -/
lemma conflictTotal_cons (o : Objective Rat) (b : Block Rat) (blocks : List (Block Rat)) :
    o.conflictTotal (b :: blocks) = (blocks.map fun c => b.box.overlap c.box).sum
      + (o.blockages.map b.box.overlap).sum + o.conflictTotal blocks := by
  rw [conflictTotal, conflictTotal, blockedArea_cons, Design.pairs, List.map_append,
    List.sum_append, List.map_map]
  simp only [Function.comp_def]
  ring

end Objective

end BlockPlan
