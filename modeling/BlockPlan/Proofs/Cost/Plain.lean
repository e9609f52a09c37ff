import BlockPlan.Proofs.Cost.Tally
import BlockPlan.Proofs.Packing.Plain

/-!
# What a term depends on

A term depends on the outline and on its own part of the objective: the wires on nets and terminals,
the notches on blockages and thresholds, and so on.  Only the boundary term looks at which blocks
prefer the edge.

* `Objective.SameFor` — two objectives that have the same part for a term.
* **`measure_plain`**, **`measure_congr`** — what the raw value of a term does not depend on.
-/

namespace BlockPlan

variable {α : Type} [Scalar α]

/-- A layout without preferences is as large. -/
lemma Layout.plain_boundingSides (l : Layout α) : l.plain.boundingSides = l.boundingSides := by
  obtain ⟨blocks, pair⟩ := l
  cases blocks with
  | nil => rfl
  | cons b rest =>
      simp only [boundingSides, plain, List.map_cons, List.map_map]
      rfl

namespace Objective

variable (o : Objective α) (blocks : List (Block α))

lemma overflow_plain : o.overflow (blocks.map Block.plain) = o.overflow blocks := by
  rw [overflow, List.foldl_map]
  rfl

lemma wireLength_plain : o.wireLength (blocks.map Block.plain) = o.wireLength blocks := by
  have hpoints : o.endPoints (blocks.map Block.plain) = o.endPoints blocks := by
    rw [endPoints, List.map_map]
    rfl
  rw [wireLength, hpoints]
  rfl

lemma guideDistance_plain : o.guideDistance (blocks.map Block.plain) = o.guideDistance blocks := by
  refine congrArg (fun f => o.guides.foldl f 0) (funext fun total => funext fun e => ?_)
  obtain ⟨i, r⟩ := e
  simp only [List.getElem?_map]
  cases blocks[i]? <;> rfl

lemma fenceEscape_plain : o.fenceEscape (blocks.map Block.plain) = o.fenceEscape blocks := by
  refine congrArg (fun f => Scalar.larger (o.fences.foldl f 0) 0)
    (funext fun total => funext fun e => ?_)
  obtain ⟨i, r⟩ := e
  simp only [List.getElem?_map]
  cases blocks[i]? <;> rfl

lemma blockedArea_plain : o.blockedArea (blocks.map Block.plain) = o.blockedArea blocks := by
  rw [blockedArea, List.flatMap_map]
  rfl

lemma grid_plain : o.grid (blocks.map Block.plain) = o.grid blocks := by
  rw [grid, List.map_map]
  rfl

/-- **Only the boundary term looks at preferences.** -/
theorem measure_plain (l : Layout α) {t : Term} (ht : t ≠ .boundary) :
    o.measure l.plain t = o.measure l t := by
  cases t with
  | area => simp only [measure, areaShare, Layout.plain_boundingSides]
  | outline => exact congrArg Except.ok (o.overflow_plain l.blocks)
  | wirelength => exact congrArg Except.ok (o.wireLength_plain l.blocks)
  | guidance => exact congrArg Except.ok (o.guideDistance_plain l.blocks)
  | fence => exact congrArg Except.ok (o.fenceEscape_plain l.blocks)
  | boundary => exact absurd rfl ht
  | blockage => exact congrArg Except.ok (o.blockedArea_plain l.blocks)
  | notch => simp only [measure, notchShare, Layout.plain_blocks, grid_plain]

/-- Whether two objectives have the same part for a term. -/
def SameFor (o o' : Objective α) : Term → Prop
  | .area | .outline | .boundary => True
  | .wirelength => o'.nets = o.nets ∧ o'.terminals = o.terminals
  | .guidance => o'.guides = o.guides
  | .fence => o'.fences = o.fences
  | .blockage => o'.blockages = o.blockages
  | .notch => o'.blockages = o.blockages ∧ o'.notchWidth = o.notchWidth ∧
    o'.notchHeight = o.notchHeight

variable {o} {o' : Objective α}

/-- **A term depends on the outline and on its own part of the objective.** -/
theorem measure_congr (hwidth : o'.outlineWidth = o.outlineWidth)
    (hheight : o'.outlineHeight = o.outlineHeight) (l : Layout α) {t : Term} (h : o.SameFor o' t) :
    o'.measure l t = o.measure l t := by
  have harea : o'.outlineArea = o.outlineArea := by rw [outlineArea, outlineArea, hwidth, hheight]
  cases t with
  | area => simp only [measure, areaShare, harea]
  | outline => simp only [measure, overflow, hwidth, hheight]
  | wirelength => simp only [measure, wireLength, endPoints, h.1, h.2]
  | guidance => simp only [measure, guideDistance, h.symm]
  | fence => simp only [measure, fenceEscape, h.symm]
  | boundary => simp only [measure, edgeDistance, edgeGap, hwidth, hheight]
  | blockage => simp only [measure, blockedArea, h.symm]
  | notch =>
      have hgrid : o'.grid l.blocks = o.grid l.blocks := by rw [grid, grid, hwidth, hheight, h.1]
      simp only [measure, notchShare, hgrid, notchAreas, h.2.1, h.2.2, harea]

end Objective

end BlockPlan
