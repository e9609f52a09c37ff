import BlockPlan.Proofs.Cost.Notch
import BlockPlan.Proofs.Packing.Tightest

/-!
# No term lies below zero

The terms measure lengths, distances and areas, so that none of them lies below zero, whether or not
the layout fits the outline.  Two of them need something for it.  The bounding box is spanned from
the origin, so that the area term needs the blocks to reach no further to the left and down than
this, as those of a packed layout do; and the wires need nets whose weights are not negative.

* `Net.length_nonneg`, `Layout.boundingSides_nonneg` — the lengths of nets and the sides of the
  bounding box.
* `Objective.measure_nonneg` — every term of blocks that reach up to the origin.
* **`Objective.measure_pack_nonneg`** — every term of a packed layout.
* **`Tally.total_nonneg`** — a cost of values that are not negative is not negative either.
-/

namespace BlockPlan

open Scalar (larger)

lemma Scalar.larger_nonneg_left {a b : Rat} (h : 0 ≤ a) : 0 ≤ larger a b := by
  rw [larger_eq_max]
  exact h.trans (le_max_left a b)

lemma Scalar.larger_nonneg_right {a b : Rat} (h : 0 ≤ b) : 0 ≤ larger a b := by
  rw [larger_eq_max]
  exact h.trans (le_max_right a b)

lemma Rect.distance_nonneg {r : Rect Rat} {px py : Rat} : 0 ≤ r.distance px py := by
  have haxis : ∀ a b : Rat, 0 ≤ larger (larger a 0) b := fun _ _ =>
    Scalar.larger_nonneg_left (Scalar.larger_nonneg_right le_rfl)
  exact add_nonneg (haxis _ _) (haxis _ _)

/-- Adding what is not negative, entry by entry, does not lead below zero. -/
lemma foldl_nonneg {β : Type} {xs : List β} {f : Rat → β → Rat}
    (h : ∀ total, 0 ≤ total → ∀ x ∈ xs, 0 ≤ f total x) : 0 ≤ xs.foldl f 0 :=
  List.foldlRecOn (motive := fun total => 0 ≤ total) xs f le_rfl h

/-! ## Lengths and sides -/

namespace Scalar

lemma smallest_le (a : Rat) (rest : List Rat) : smallest a rest ≤ a := by
  induction rest generalizing a with
  | nil => exact le_rfl
  | cons b rest ih =>
      calc smallest a (b :: rest) = smallest (smaller a b) rest := rfl
        _ ≤ smaller a b := ih _
        _ ≤ a := by
          rw [smaller_eq_min]
          exact min_le_left a b

lemma smallest_le_largest (a : Rat) (rest : List Rat) : smallest a rest ≤ largest a rest :=
  (smallest_le a rest).trans (largest_le_iff.mp le_rfl a (by simp))

end Scalar

lemma Net.length_nonneg {n : Net Rat} (h : 0 ≤ n.weight) (points : Points Rat) :
    0 ≤ n.length points := by
  rw [length, boundingBox?]
  split
  · rename_i b hbox
    split at hbox
    · rename_i p q rest _
      cases hbox
      have hx := Scalar.smallest_le_largest p.1 ((q :: rest).map (·.1))
      have hy := Scalar.smallest_le_largest p.2 ((q :: rest).map (·.2))
      exact mul_nonneg (add_nonneg (sub_nonneg.mpr hx) (sub_nonneg.mpr hy)) h
    · cases hbox
  · exact le_rfl

lemma Layout.boundingSides_nonneg {l : Layout Rat} (h : ∀ b ∈ l.blocks, 0 ≤ b.xMax ∧ 0 ≤ b.yMax) :
    0 ≤ l.boundingSides.1 ∧ 0 ≤ l.boundingSides.2 := by
  cases hl : l.blocks with
  | nil =>
      rw [boundingSides, hl]
      exact ⟨le_rfl, le_rfl⟩
  | cons b rest =>
      have hb : b ∈ l.blocks := by simp [hl]
      obtain ⟨hright, habove⟩ := le_boundingSides hb
      exact ⟨(h b hb).1.trans hright, (h b hb).2.trans habove⟩

/-! ## The terms -/

namespace Objective

variable {o : Objective Rat}

lemma overflow_nonneg (blocks : List (Block Rat)) : 0 ≤ o.overflow blocks := by
  have hlarger : ∀ a : Rat, 0 ≤ larger 0 a := fun _ => Scalar.larger_nonneg_left le_rfl
  refine foldl_nonneg fun total htotal b _ => ?_
  exact add_nonneg (add_nonneg htotal (add_nonneg (hlarger _) (hlarger _)))
    (add_nonneg (hlarger _) (hlarger _))

lemma wireLength_nonneg (hnets : ∀ n ∈ o.nets, 0 ≤ n.weight) (blocks : List (Block Rat)) :
    0 ≤ o.wireLength blocks := by
  rw [wireLength]
  split_ifs
  · exact le_rfl
  · rw [Scalar.sum_eq]
    refine List.sum_nonneg fun length hlength => ?_
    obtain ⟨n, hn, rfl⟩ := List.mem_map.mp hlength
    exact Net.length_nonneg (hnets n hn) _

lemma guideDistance_nonneg (blocks : List (Block Rat)) : 0 ≤ o.guideDistance blocks := by
  refine foldl_nonneg fun total htotal ⟨i, r⟩ _ => ?_
  dsimp only
  cases blocks[i]? with
  | none => exact htotal
  | some b => exact add_nonneg htotal Rect.distance_nonneg

lemma edgeDistance_nonneg (blocks : List (Block Rat)) : 0 ≤ o.edgeDistance blocks := by
  refine foldl_nonneg fun total htotal b _ => ?_
  split_ifs
  · exact add_nonneg htotal (Scalar.larger_nonneg_right le_rfl)
  · exact htotal

section Outline

variable (hwidth : 0 < o.outlineWidth) (hheight : 0 < o.outlineHeight)
  (hnets : ∀ n ∈ o.nets, 0 ≤ n.weight)

include hwidth hheight hnets

/-- No term of blocks that reach up to the origin or beyond lies below zero, and all of them can be
measured. -/
lemma measure_nonneg {l : Layout Rat} (hl : ∀ b ∈ l.blocks, 0 ≤ b.xMax ∧ 0 ≤ b.yMax) (t : Term) :
    ∃ v, o.measure l t = .ok v ∧ 0 ≤ v := by
  have harea : 0 < o.outlineArea := mul_pos hwidth hheight
  cases t with
  | area =>
      obtain ⟨hx, hy⟩ := Layout.boundingSides_nonneg hl
      exact ⟨_, divide_eq_ok harea.ne', div_nonneg (mul_nonneg hx hy) harea.le⟩
  | outline => exact ⟨_, rfl, overflow_nonneg l.blocks⟩
  | wirelength => exact ⟨_, rfl, wireLength_nonneg hnets l.blocks⟩
  | guidance => exact ⟨_, rfl, guideDistance_nonneg l.blocks⟩
  | fence => exact ⟨_, rfl, Scalar.larger_nonneg_right le_rfl⟩
  | boundary => exact ⟨_, rfl, edgeDistance_nonneg l.blocks⟩
  | blockage => exact ⟨_, rfl, blockedArea_nonneg o l.blocks⟩
  | notch =>
      have hcharts := grid_charts hwidth hheight l.blocks
      exact ⟨_, measure_notch harea.ne' l,
        div_nonneg (Grid.areaOf_nonneg hcharts.columns hcharts.rows _) harea.le⟩

/-- **No term of a packed layout lies below zero**, and all of them can be measured. -/
theorem measure_pack_nonneg {l : Layout Rat} (hpair : l.Coherent)
    (hsides : ∀ b ∈ l.blocks, 0 ≤ b.width ∧ 0 ≤ b.height) (t : Term) :
    ∃ v, o.measure l.pack t = .ok v ∧ 0 ≤ v := by
  have hrespects := Layout.pack_respects hpair hsides
  have hpacked := Layout.pack_sides hpair hsides
  refine measure_nonneg hwidth hheight hnets (fun b hb => ?_) t
  exact ⟨add_nonneg (hrespects.x_nonneg b hb) (hpacked b hb).1,
    add_nonneg (hrespects.y_nonneg b hb) (hpacked b hb).2⟩

end Outline

end Objective

/-! ## Weighing -/

namespace Tally

variable {tally : Tally Rat}

/-- Raw values none of which lies below zero. -/
def Nonneg (tally : Tally Rat) : Prop := ∀ t, 0 ≤ tally.raw.get t

lemma nonneg_initial : (initial : Tally Rat).Nonneg := by
  intro t
  cases t <;> exact le_rfl

/-- Norms that are found from samples leave the raw values as they are. -/
lemma Nonneg.setNorms (h : tally.Nonneg) (samples : List (PerTerm Rat)) :
    (tally.setNorms samples).Nonneg := by
  rw [Tally.setNorms]
  split_ifs
  · exact h
  · exact h

/-- **The cost of values that are not negative is not negative**, and can be worked out. -/
theorem total_nonneg (hnorms : tally.PositiveNorms) (h : tally.Nonneg) {weights : Weights Rat}
    (hweights : ∀ t, 0 ≤ weights.get t) : ∃ cost, tally.total weights = .ok cost ∧ 0 ≤ cost := by
  refine ⟨_, total_eq_ok hnorms weights, ?_⟩
  rw [Scalar.sum_eq]
  refine List.sum_nonneg fun cost hcost => ?_
  obtain ⟨t, -, rfl⟩ := List.mem_map.mp hcost
  exact mul_nonneg (hweights t) (div_nonneg (h t) (hnorms t).le)

end Tally

end BlockPlan
