import BlockPlan.Cells.FreeRuns
import BlockPlan.Cost.Term
import BlockPlan.Design.Metrics
import BlockPlan.Packing.Layout
import BlockPlan.Sequence.PairwiseSum

/-!
# What the terms measure

An `Objective` is what a layout is judged by: the outline, the nets and terminals, the guides and
fences of single blocks, the blockages, the weights of the terms and the widths below which free
space counts as a notch.  `Objective.measure` is the raw value of a term for some placed blocks;
only the area and the notch term can fail, when the outline has no area.
-/

namespace BlockPlan

variable {α : Type}

/-- What a layout is judged by. -/
structure Objective (α : Type) where
  outlineWidth : α
  outlineHeight : α
  nets : List (Net α)
  terminals : Points α
  /-- The guides, each with the place of its block. -/
  guides : List (Nat × Rect α)
  /-- The fences, each with the place of its block. -/
  fences : List (Nat × Rect α)
  blockages : List (Box α)
  weights : Weights α
  /-- Free runs along rows that are shorter than this are notches. -/
  notchWidth : α
  /-- Free runs along columns that are shorter than this are notches. -/
  notchHeight : α

namespace Objective

/-- The place of the last block of a name. -/
def placeOf? (blocks : List (Block α)) (name : String) : Option Nat :=
  (blocks.zipIdx.findRev? fun (b, _) => b.name == name).map (·.2)

/-- Replaces the names of regions by the places of their blocks. -/
def resolve (blocks : List (Block α)) (regions : List (String × Rect α)) :
    Except (Fault α) (List (Nat × Rect α)) :=
  regions.mapM fun (name, r) =>
    match placeOf? blocks name with
    | some i => .ok (i, r)
    | none => .error (.unknownName name)

variable [Scalar α]

open Scalar (larger smaller)

/-- The objective of a design.  Neither a notch threshold nor a weight may be negative, and every
guide and fence has to belong to a block. -/
def ofDesign (d : Design α) (weights : Weights α) (notchWidth notchHeight : α) :
    Except (Fault α) (Objective α) := do
  if notchWidth < 0 ∨ notchHeight < 0 then throw .negativeThreshold
  weights.validate
  let guides ← resolve d.blocks d.guides
  let fences ← resolve d.blocks d.fences
  pure
    { outlineWidth := d.outlineWidth
      outlineHeight := d.outlineHeight
      nets := d.nets
      terminals := d.terminals
      guides := guides
      fences := fences
      blockages := d.blockages.map Rect.box
      weights := weights
      notchWidth := notchWidth
      notchHeight := notchHeight }

def outlineArea (o : Objective α) : α := o.outlineWidth * o.outlineHeight

/-- Whether a term has a weight. -/
def enabled (o : Objective α) (t : Term) : Bool := decide (0 < o.weights.get t)

/-! ## The terms -/

/-- The area of the bounding box of a layout as a share of the outline. -/
def areaShare (o : Objective α) (l : Layout α) : Except (Fault α) α :=
  divide (l.boundingSides.1 * l.boundingSides.2) o.outlineArea

/-- How far the blocks stick out of the outline, axis by axis. -/
def overflow (o : Objective α) (blocks : List (Block α)) : α :=
  blocks.foldl
    (fun total b =>
      total + (larger 0 (-b.x) + larger 0 (b.xMax - o.outlineWidth))
        + (larger 0 (-b.y) + larger 0 (b.yMax - o.outlineHeight)))
    0

/-- Where nets end: at the terminals and at the centres of the blocks. -/
def endPoints (o : Objective α) (blocks : List (Block α)) : Points α :=
  enterAll (blocks.map fun b => (b.name, b.center)) o.terminals

/-- The weighted length of the nets. -/
def wireLength (o : Objective α) (blocks : List (Block α)) : α :=
  if o.nets.isEmpty then 0
  else
    let points := o.endPoints blocks
    Scalar.sum (o.nets.map (Net.length points))

/-- The distances of the centres of blocks from their guides. -/
def guideDistance (o : Objective α) (blocks : List (Block α)) : α :=
  o.guides.foldl
    (fun total (i, r) =>
      match blocks[i]? with
      | some b => total + r.distance b.center.1 b.center.2
      | none => total)
    0

/-- The area of blocks outside their fences. -/
def fenceEscape (o : Objective α) (blocks : List (Block α)) : α :=
  larger
    (o.fences.foldl
      (fun total (i, r) =>
        match blocks[i]? with
        | some b => total + (b.area - b.box.overlap r.box)
        | none => total)
      0)
    0

/-- The smallest of the four gaps between a block and the edges of the outline. -/
def edgeGap (o : Objective α) (b : Block α) : α :=
  smaller (smaller (smaller b.x b.y) (o.outlineWidth - b.x - b.width))
    (o.outlineHeight - b.y - b.height)

/-- How far the blocks that prefer the edge are from it. -/
def edgeDistance (o : Objective α) (blocks : List (Block α)) : α :=
  blocks.foldl
    (fun total b => if b.prefersEdge then total + larger (o.edgeGap b) 0 else total) 0

/-- The area that blocks share with blockages. -/
def blockedArea (o : Objective α) (blocks : List (Block α)) : α :=
  Scalar.sum (blocks.flatMap fun b => o.blockages.map fun r => b.box.overlap r)

/-- The grid that blocks and blockages cut out of the outline. -/
def grid (o : Objective α) (blocks : List (Block α)) : Grid α :=
  .ofLayout o.outlineWidth o.outlineHeight (blocks.map Block.box) o.blockages

/-- The areas of the free cells whose run along the row or along the column is too short, row by
row. -/
def notchAreas (o : Objective α) (g : Grid α) : List α :=
  let rows := List.zip g.heights
    (List.zip g.freeCells (List.zip (g.freeRuns .alongRows) (g.freeRuns .alongColumns)))
  rows.flatMap fun (height, free, across, up) =>
    (List.zip g.widths (List.zip free (List.zip across up))).filterMap
      fun (width, free, across, up) =>
        if free && (decide (across < o.notchWidth) || decide (up < o.notchHeight)) then
          some (height * width)
        else none

/-- The share of the outline that is free but too narrow to be used. -/
def notchShare (o : Objective α) (blocks : List (Block α)) : Except (Fault α) α :=
  let g := o.grid blocks
  if g.hasFree then divide (pairwiseSum (o.notchAreas g)) o.outlineArea else .ok 0

/-- The raw value of a term. -/
def measure (o : Objective α) (l : Layout α) : Term → Except (Fault α) α
  | .area => o.areaShare l
  | .outline => .ok (o.overflow l.blocks)
  | .wirelength => .ok (o.wireLength l.blocks)
  | .guidance => .ok (o.guideDistance l.blocks)
  | .fence => .ok (o.fenceEscape l.blocks)
  | .boundary => .ok (o.edgeDistance l.blocks)
  | .blockage => .ok (o.blockedArea l.blocks)
  | .notch => o.notchShare l.blocks

end Objective

end BlockPlan
