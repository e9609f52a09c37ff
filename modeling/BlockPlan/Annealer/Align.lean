import BlockPlan.Annealer.Plan

/-!
# Aligning hard blocks

Hard blocks that are almost flush with an edge of the outline, or with an edge of another hard
block, are moved onto it.  A block that would leave the outline or overlap more than before stays
where it is, and nothing is moved at all unless the layout fits the outline.
-/

namespace BlockPlan

variable {α : Type} [Scalar α]

open Scalar (smaller magnitude)

namespace Objective

/-- The area that a block shares with other blocks and with blockages. -/
def conflict (o : Objective α) (blocks : List (Block α)) (i : Nat) (b : Block α) : α :=
  Scalar.sum ((blocks.zipIdx.filter (·.2 != i)).map fun (c, _) => b.box.overlap c.box)
    + Scalar.sum (o.blockages.map b.box.overlap)

/-- Moves a block to a point, unless it would leave the outline or conflict more there. -/
def tryPlace (o : Objective α) (i : Nat) (x y : α) (blocks : List (Block α)) : List (Block α) :=
  match blocks[i]? with
  | none => blocks
  | some b =>
    let moved := b.place x y
    if moved.isInside o.outlineWidth o.outlineHeight
        && decide (o.conflict blocks i moved ≤ o.conflict blocks i b) then
      blocks.set i moved
    else blocks

/-- Whether a gap is small but not closed. -/
def isNear (gap threshold : α) : Bool := decide (0 < gap) && decide (gap ≤ threshold)

/-- Moves a block along an axis as `target?` tells from the block. -/
def snap (o : Objective α) (axis : Axis) (i : Nat) (target? : Block α → Option α)
    (blocks : List (Block α)) : List (Block α) :=
  match blocks[i]? with
  | none => blocks
  | some b =>
    match target? b with
    | some v => o.tryPlace i (b.moveTo axis v).x (b.moveTo axis v).y blocks
    | none => blocks

/-- Moves a block onto the edges of the outline that are near: left or else right, then bottom or
else top. -/
def snapToOutline (o : Objective α) (h v : α) (blocks : List (Block α)) (i : Nat) :
    List (Block α) :=
  let blocks := o.snap .x i
    (fun b =>
      if isNear b.x h then some 0
      else if isNear (o.outlineWidth - b.xMax) h then some (o.outlineWidth - b.width)
      else none) blocks
  o.snap .y i
    (fun b =>
      if isNear b.y v then some 0
      else if isNear (o.outlineHeight - b.yMax) v then some (o.outlineHeight - b.height)
      else none) blocks

/-- Moves a block onto the edges of another one that are near: left or else right, then bottom or
else top. -/
def snapToBlock (o : Objective α) (h v : α) (reference : Nat) (blocks : List (Block α)) (i : Nat) :
    List (Block α) :=
  match blocks[reference]? with
  | none => blocks
  | some r =>
    let blocks := o.snap .x i
      (fun b =>
        if isNear (magnitude (b.x - r.x)) h then some r.x
        else if isNear (magnitude (b.xMax - r.xMax)) h then some (r.xMax - b.width)
        else none) blocks
    o.snap .y i
      (fun b =>
        if isNear (magnitude (b.y - r.y)) v then some r.y
        else if isNear (magnitude (b.yMax - r.yMax)) v then some (r.yMax - b.height)
        else none) blocks

/-- Moves each of some blocks onto the near edges of those in front of it. -/
def snapPairs (o : Objective α) (h v : α) : List Nat → List (Block α) → List (Block α)
  | [], blocks => blocks
  | reference :: rest, blocks =>
    snapPairs o h v rest (rest.foldl (o.snapToBlock h v reference) blocks)

/-- A threshold that was not given: the one for notches, but at most a tenth of the outline and at
most the smallest side of a hard block. -/
def defaultThreshold (notch side : α) (first : α) (rest : List α) : α :=
  smaller (smaller notch (side * Scalar.ratio 1 10)) (Scalar.smallest first rest)

/-- The blocks after aligning the hard ones with numbers `hard`. -/
def align (o : Objective α) (h v : α) (hard : List Nat) (blocks : List (Block α)) :
    List (Block α) :=
  o.snapPairs h v hard (hard.foldl (o.snapToOutline h v) blocks)

end Objective

/-- Aligns the hard blocks of a plan and measures all terms.  Without hard blocks, or if the layout
does not fit the outline, nothing happens. -/
def Plan.align (setup : Setup α) (h? v? : Option α) : Edit α (Plan α) Unit := do
  let l := (← get).layout
  let o := setup.objective
  let hard := l.blocks.zipIdx.filter (·.1.isHard)
  match hard.map (·.1) with
  | [] => pure ()
  | b :: rest =>
    let (width, height) := l.boundingSides
    if o.outlineWidth < width ∨ o.outlineHeight < height then pure ()
    else
      let h := h?.getD
        (Objective.defaultThreshold o.notchWidth o.outlineWidth b.width (rest.map (·.width)))
      let v := v?.getD
        (Objective.defaultThreshold o.notchHeight o.outlineHeight b.height (rest.map (·.height)))
      onLayout (modify fun l => { l with blocks := o.align h v (hard.map (·.2)) l.blocks })
      evaluate setup true
      forget

end BlockPlan
