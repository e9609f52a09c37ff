import BlockPlan.Rect
import BlockPlan.Sequence.Bisection
import BlockPlan.Sequence.Gaps
import BlockPlan.Sequence.Slot

/-!
# The cells of an outline

The edges of a set of boxes cut an outline into a grid of cells, each of which lies either inside a
box or outside it.  A `Grid` holds the cutting lines of both axes and, for every cell, who occupies
it.

* `cellRange` — the cells that a span of coordinates meets.
* `Grid.ofBoxes` — the free grid cut by some boxes.
* `Grid.ofLayout` — the grid of blocks and blockages, a later block over an earlier one and
  blockages over all blocks.
-/

namespace BlockPlan

variable {α : Type} [Scalar α]

/-- The cells, from one line up to another, that the span from `start` to `finish` meets: from the
last line at or before the start to the first line at or behind the end, clipped to the grid.  An
empty span meets none. -/
def cellRange (start finish : α) (lines : List α) : Int × Int :=
  let count : Int := (lines.length : Int) - 1
  let first := min (max ((upperPlace lines start : Int) - 1) 0) count
  let last := min (max (lowerPlace lines finish : Int) 0) count
  (first, if last < first then first else last)

/-- Who occupies a cell. -/
inductive Cell where
  | free
  | blocked
  | owned (owner : Int)
  deriving DecidableEq, Repr

namespace Cell

/-- The number that stands for an occupant: `-1` for nobody, `-2` for a blockage, and for an owner
the number that it has. -/
def number : Cell → Int
  | free => -1
  | blocked => -2
  | owned owner => owner

/-- The occupant that a number stands for; owners have to fit into a word. -/
def ofNumber {α : Type} (i : Int) : Except (Fault α) Cell :=
  if ¬ FitsWord i then .error .ownerTooLarge
  else if i = -1 then .ok free
  else if i = -2 then .ok blocked
  else .ok (owned i)

/-- The occupant that a number stands for has that number. -/
theorem number_of_ofNumber {α : Type} {i : Int} {c : Cell}
    (h : (ofNumber i : Except (Fault α) Cell) = .ok c) : c.number = i := by
  unfold ofNumber at h
  split at h
  · simp at h
  · split at h
    · cases h; simp [number, *]
    · split at h <;> (cases h; simp [number, *])

end Cell

/-- Cutting lines and occupied cells.  The cells are listed row by row from the bottom. -/
structure Grid (α : Type) where
  xLines : List α
  yLines : List α
  cells : List (List Cell)
  deriving Repr

/-- Enters a number into a list unless an equal one is there. -/
def addLine (lines : List α) (x : α) : List α :=
  if lines.any (· == x) then lines else lines ++ [x]

/-- The lines of one axis: both ends of the outline and every coordinate strictly between, in
ascending order.  Two lines change places only if the later one lies strictly below the earlier. -/
def cutLines (side : α) (coordinates : List α) : List α :=
  let inner := coordinates.filter fun x => decide (0 < x) && decide (x < side)
  (inner.foldl addLine (addLine [0] side)).mergeSort fun a b => !decide (b < a)

namespace Grid

omit [Scalar α] in
def columnCount (g : Grid α) : Int := (g.xLines.length : Int) - 1

omit [Scalar α] in
def rowCount (g : Grid α) : Int := (g.yLines.length : Int) - 1

/-- The widths of the columns. -/
def widths (g : Grid α) : List α := gaps g.xLines

/-- The heights of the rows. -/
def heights (g : Grid α) : List α := gaps g.yLines

/-- The area of the cell in a row and a column. -/
def cellArea (g : Grid α) (row column : Int) : Except (Fault α) α := do
  let right ← Slot.entry g.xLines (column + 1)
  let left ← Slot.entry g.xLines column
  let top ← Slot.entry g.yLines (row + 1)
  let bottom ← Slot.entry g.yLines row
  pure ((right - left) * (top - bottom))

/-- The free grid that some boxes cut out of an outline. -/
def ofBoxes (width height : α) (boxes : List (Box α)) : Grid α :=
  let xLines := cutLines width (boxes.flatMap fun b => [b.xMin, b.xMax])
  let yLines := cutLines height (boxes.flatMap fun b => [b.yMin, b.yMax])
  ⟨xLines, yLines, List.replicate (yLines.length - 1) (List.replicate (xLines.length - 1) .free)⟩

/-- The cells that a box meets: the range of columns and the range of rows. -/
def span (g : Grid α) (b : Box α) : (Int × Int) × (Int × Int) :=
  (cellRange b.xMin b.xMax g.xLines, cellRange b.yMin b.yMax g.yLines)

/-- Ranges of rows and columns, each between two cuts. -/
structure Region where
  rows : Int × Int
  columns : Int × Int

omit [Scalar α] in
/-- Changes the cells of a region. -/
def mapRegion (f : Cell → Cell) (region : Region) (g : Grid α) : Grid α :=
  { g with
    cells := g.cells.mapIdx fun r row =>
      if Slot.between g.cells.length region.rows.1 region.rows.2 r then
        row.mapIdx fun c cell =>
          if Slot.between row.length region.columns.1 region.columns.2 c then f cell else cell
      else row }

omit [Scalar α] in
/-- Gives the cells of a region to an occupant. -/
def fill (region : Region) (cell : Cell) (g : Grid α) : Grid α := g.mapRegion (fun _ => cell) region

omit [Scalar α] in
/-- Whether all cells of a region are free. -/
def isFree (g : Grid α) (region : Region) : Bool :=
  (g.cells.zipIdx).all fun (row, r) =>
    !Slot.between g.cells.length region.rows.1 region.rows.2 r ||
      (row.zipIdx).all fun (cell, c) =>
        !Slot.between row.length region.columns.1 region.columns.2 c || cell == .free

/-- Gives the cells that a box meets to an occupant. -/
def mark (b : Box α) (cell : Cell) (g : Grid α) : Grid α :=
  let (columns, rows) := g.span b
  g.fill ⟨rows, columns⟩ cell

/-- The grid of blocks and blockages. -/
def ofLayout (width height : α) (blocks blockages : List (Box α)) : Grid α :=
  let g := ofBoxes width height (blocks ++ blockages)
  let g := blocks.zipIdx.foldl (fun g (b, i) => g.mark b (.owned i)) g
  blockages.foldl (fun g b => g.mark b .blocked) g

end Grid

end BlockPlan
