import BlockPlan.Fault
import BlockPlan.Decimal.Text

/-!
# Boxes and rectangles

A `Box` is given by its four extreme coordinates, a `Rect` by its lower left corner and its sides.
Blockages, guides and fences are rectangles; boxes are what overlap is measured on.
-/

namespace BlockPlan

variable {α : Type}

/-- The region from `(xMin, yMin)` to `(xMax, yMax)`. -/
structure Box (α : Type) where
  xMin : α
  yMin : α
  xMax : α
  yMax : α
  deriving DecidableEq, Repr

/-- A rectangle with its lower left corner at `(x, y)`. -/
structure Rect (α : Type) where
  x : α
  y : α
  width : α
  height : α
  deriving DecidableEq, Repr

variable [Scalar α]

open Scalar (larger smaller half)

/-- The area that two boxes have in common; boxes that only touch have none. -/
def Box.overlap (a b : Box α) : α :=
  let dx := smaller a.xMax b.xMax - larger a.xMin b.xMin
  let dy := smaller a.yMax b.yMax - larger a.yMin b.yMin
  if dx ≤ 0 ∨ dy ≤ 0 then 0 else dx * dy

namespace Rect

/-- A rectangle of given sides, neither of which may be negative. -/
def make (x y width height : α) : Except (Fault α) (Rect α) :=
  if width < 0 ∨ height < 0 then .error (.negativeSides width height)
  else .ok ⟨x, y, width, height⟩

/-- The right edge. -/
def xMax (r : Rect α) : α := r.x + r.width

/-- The upper edge. -/
def yMax (r : Rect α) : α := r.y + r.height

def area (r : Rect α) : α := r.width * r.height

def center (r : Rect α) : α × α := (r.x + half r.width, r.y + half r.height)

/-- The region that the rectangle covers. -/
def box (r : Rect α) : Box α := ⟨r.x, r.y, r.xMax, r.yMax⟩

/-- The area that two rectangles have in common. -/
def overlap (a b : Rect α) : α := a.box.overlap b.box

/-- Whether two rectangles have an area in common. -/
def overlaps (a b : Rect α) : Bool := decide (0 < a.overlap b)

/-- Whether a point lies in the rectangle or on its edge. -/
def contains (r : Rect α) (px py : α) : Bool :=
  decide (r.x ≤ px) && decide (px ≤ r.xMax) && (decide (r.y ≤ py) && decide (py ≤ r.yMax))

/-- The Manhattan distance of a point from the rectangle, which is zero inside. -/
def distance (r : Rect α) (px py : α) : α :=
  larger (larger (r.x - px) 0) (px - r.xMax) + larger (larger (r.y - py) 0) (py - r.yMax)

/-- Whether all four numbers of two rectangles are equal. -/
def same (a b : Rect α) : Bool :=
  a.x == b.x && a.y == b.y && a.width == b.width && a.height == b.height

/-- One line about a rectangle. -/
def describe (r : Rect Float) : String :=
  let x := Decimal.fixedText 1 r.x
  let y := Decimal.fixedText 1 r.y
  let w := Decimal.fixedText 1 r.width
  let h := Decimal.fixedText 1 r.height
  s!"Rect(({x},{y}), {w}×{h})"

end Rect

end BlockPlan
