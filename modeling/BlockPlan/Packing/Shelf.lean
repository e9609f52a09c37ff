import BlockPlan.Packing.Layout
import BlockPlan.Sequence.StableSort

/-!
# Shelves

The starting sequence pair of a layout: blocks sorted by decreasing height fill shelves from left to
right, and a new shelf begins where the next block would exceed the width of the outline.  The
positive sequence lists the shelves from top to bottom and the negative one from bottom to top.
-/

namespace BlockPlan.Shelf

variable {α : Type} [Scalar α]

/-- The blocks by decreasing height, equal ones in their order. -/
def byHeight (blocks : List (Block α)) : List (Nat × Block α) :=
  stableSort (fun a => a.2.height == a.2.height) (fun a b => decide (-a.2.height < -b.2.height))
    (blocks.zipIdx.map fun (b, i) => (i, b))

/-- Cuts a list of blocks into shelves.  `row` is the shelf that is being filled and `used` the
width taken on it. -/
def cut (width : α) (row : List Nat) (used : α) : List (Nat × Block α) → List (List Nat)
  | [] => if row.isEmpty then [] else [row]
  | (i, b) :: rest =>
    if !row.isEmpty && decide (width < used + b.width) then
      row :: cut width [i] (0 + b.width) rest
    else cut width (row ++ [i]) (used + b.width) rest

/-- The shelves of some blocks in an outline of a given width, from bottom to top. -/
def shelves (width : α) (blocks : List (Block α)) : List (List Nat) :=
  cut width [] 0 (byHeight blocks)

/-- The positive and the negative sequence of the shelves. -/
def sequences (width : α) (blocks : List (Block α)) : List Nat × List Nat :=
  let rows := shelves width blocks
  (rows.reverse.flatten, rows.flatten)

end BlockPlan.Shelf
