import BlockPlan.Cells.Grid

/-!
# Free runs

The free cells of a row form runs, and every free cell has the length of its run.  All runs of a
grid are numbered through, row after row: the starts and the ends of the runs, listed in that order,
pair up, so that the run with a number reaches from the start to the end of the same number.  A cell
finds the number of its run by counting the starts up to itself.

Runs along columns are those of the transposed grid.
-/

namespace BlockPlan

variable {α : Type}

/-- Exchanges rows and columns. -/
def transpose {β : Type} (columnCount : Nat) (rows : List (List β)) : List (List β) :=
  (List.range columnCount).map fun c => rows.filterMap (·[c]?)

/-- Whether the cell at a place is free and the one in front of it, if any, is not. -/
def startsAt (row : List Bool) (p : Nat) : Bool :=
  row.getD p false && !(p != 0 && row.getD (p - 1) false)

/-- Whether a run ends in front of a place. -/
def endsAt (row : List Bool) (p : Nat) : Bool :=
  p != 0 && row.getD (p - 1) false && !row.getD p false

/-- The places at which the runs of a row start. -/
def runStarts (row : List Bool) : List Nat := (List.range row.length).filter (startsAt row)

/-- The places in front of which the runs of a row end. -/
def runEnds (row : List Bool) : List Nat := (List.range (row.length + 1)).filter (endsAt row)

/-- Gives every free cell of a row the length of its run.  `count` runs have started in front of
place `p`. -/
def spreadLengths [Scalar α] (lengths : List α) (row : List Bool) :
    (count p : Nat) → List Bool → List α
  | _, _, [] => []
  | count, p, cell :: rest =>
    let count := if startsAt row p then count + 1 else count
    (if cell then lengths.getD (count - 1) 0 else 0) :: spreadLengths lengths row count (p + 1) rest

/-- Spreads the lengths of the runs, numbered through from `count` on, over all rows. -/
def spreadRows [Scalar α] (lengths : List α) : (count : Nat) → List (List Bool) → List (List α)
  | _, [] => []
  | count, row :: rest =>
    spreadLengths lengths row count 0 row
      :: spreadRows lengths (count + (runStarts row).length) rest

/-- The running sums of a list, from zero on. -/
def offsets [Scalar α] (sizes : List α) : List α :=
  sizes.scanl (· + ·) 0

/-- The length of its run for every free cell, and zero for all other cells; `sizes` are the lengths
of the cells of a row. -/
def runLengths [Scalar α] (sizes : List α) (free : List (List Bool)) : List (List α) :=
  let line := offsets sizes
  let starts := free.flatMap runStarts
  let ends := free.flatMap runEnds
  let lengths := List.zipWith (fun s e => line.getD e 0 - line.getD s 0) starts ends
  spreadRows lengths 0 free

/-- The directions in which runs are measured. -/
inductive RunDirection where
  | alongRows
  | alongColumns
  deriving DecidableEq, Repr

namespace Grid

/-- Which cells are free. -/
def freeCells (g : Grid α) : List (List Bool) := g.cells.map fun row => row.map (· == .free)

/-- Whether any cell is free. -/
def hasFree (g : Grid α) : Bool := g.cells.any fun row => row.any (· == .free)

/-- The length of the free run that each cell belongs to, and zero for occupied cells. -/
def freeRuns [Scalar α] (direction : RunDirection) (g : Grid α) : List (List α) :=
  if g.hasFree then
    match direction with
    | .alongRows => runLengths g.widths g.freeCells
    | .alongColumns =>
      transpose g.cells.length
        (runLengths g.heights (transpose (g.xLines.length - 1) g.freeCells))
  else g.cells.map fun row => row.map fun _ => 0

end Grid

end BlockPlan
