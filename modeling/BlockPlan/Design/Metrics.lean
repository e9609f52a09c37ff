import BlockPlan.Design.Basic

/-!
# Metrics of a placed design

How full the outline is, how much the blocks overlap each other and the blockages, and how far they
stick out.
-/

namespace BlockPlan.Design

variable {α : Type} [Scalar α]

open Scalar (larger)

def outlineArea (d : Design α) : α := d.outlineWidth * d.outlineHeight

/-- The outline, with its lower left corner at the origin. -/
def outline (d : Design α) : Except (Fault α) (Rect α) :=
  Rect.make 0 0 d.outlineWidth d.outlineHeight

/-- The area of all blocks. -/
def blockArea (d : Design α) : α := Scalar.sum (d.blocks.map Block.area)

/-- The area of all blocks as a share of the outline; zero for an outline without area. -/
def utilization (d : Design α) : α :=
  if d.outlineArea == 0 then 0 else d.blockArea / d.outlineArea

omit [Scalar α] in
/-- The first block of a name. -/
def block (d : Design α) (name : String) : Except (Fault α) (Block α) :=
  match d.blocks.find? (·.name == name) with
  | some b => .ok b
  | none => .error (.unknownName name)

/-- All unordered pairs of a list, each with the earlier entry first. -/
def pairs {β : Type} : List β → List (β × β)
  | [] => []
  | x :: rest => rest.map (x, ·) ++ pairs rest

/-- The area of the overlaps of all pairs of blocks. -/
def overlapArea (d : Design α) : α :=
  Scalar.sum ((pairs (d.blocks.map Block.box)).map fun (a, b) => a.overlap b)

/-- The area of the overlaps of blocks with blockages. -/
def blockedArea (d : Design α) : α :=
  Scalar.sum (d.blocks.flatMap fun b => d.blockages.map fun r => b.box.overlap r.box)

/-- How far a block sticks out of an outline, added up over its four sides. -/
def extentOutside (width height : α) (b : Block α) : α :=
  larger 0 (-b.x) + larger 0 (b.xMax - width) + larger 0 (-b.y) + larger 0 (b.yMax - height)

/-- The blocks that stick out of the outline, and how far. -/
def violations (d : Design α) : List (String × α) :=
  (d.blocks.map fun b => (b.name, extentOutside d.outlineWidth d.outlineHeight b)).filter
    fun v => decide (0 < v.2)

/-- Whether no block sticks out. -/
def allInside (d : Design α) : Bool := d.violations.isEmpty

end BlockPlan.Design
