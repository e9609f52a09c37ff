import BlockPlan.Packing.Layout

/-!
# Moves and what undoes them

A move changes the sequences or the shape of a block.  Its record keeps the slots that were
exchanged, the shape keys that were in force, where the blocks stood that were packed anew, and the
raw values of the terms, which together undo it.
-/

namespace BlockPlan

/-- The kinds of moves. -/
inductive MoveKind where
  /-- Exchange two slots of the positive sequence. -/
  | positiveSwap
  /-- Exchange two slots of the negative sequence. -/
  | negativeSwap
  /-- Exchange two slots in either sequence, independently of each other. -/
  | doubleSwap
  /-- Exchange two blocks in both sequences. -/
  | exchange
  /-- Give a soft block another candidate shape. -/
  | resize
  /-- Give a soft block the next smaller candidate along the axis on which it sticks out more. -/
  | shrink
  /-- Give a hard block another orientation. -/
  | rotate
  deriving DecidableEq, Repr

namespace MoveKind

/-- All kinds of moves. -/
def all : List MoveKind :=
  [.positiveSwap, .negativeSwap, .doubleSwap, .exchange, .resize, .shrink, .rotate]

/-- The name of a kind. -/
def name : MoveKind → String
  | .positiveSwap => "POS_SWAP"
  | .negativeSwap => "NEG_SWAP"
  | .doubleSwap => "DOUBLE_SWAP"
  | .exchange => "EXCHANGE"
  | .resize => "RESIZE"
  | .shrink => "SHRINK"
  | .rotate => "ROTATE"

end MoveKind

/-- What a move changed: the sequences and the shapes, each in the order of the changes. -/
structure Changes where
  positiveSwaps : List (Int × Int) := []
  negativeSwaps : List (Int × Int) := []
  /-- Blocks with the shape keys that were in force before. -/
  shapes : List (Nat × ShapeKey) := []
  deriving DecidableEq, Repr

/-- Exchanges in one of the sequences, and nothing else. -/
def Changes.ofSwaps (sign : Sign) (swaps : List (Int × Int)) : Changes :=
  match sign with
  | .positive => { positiveSwaps := swaps }
  | .negative => { negativeSwaps := swaps }

/-- Whether nothing was changed. -/
def Changes.isEmpty (c : Changes) : Bool :=
  c.positiveSwaps.isEmpty && c.negativeSwaps.isEmpty && c.shapes.isEmpty

/-- The record of a move. -/
structure Move (α : Type) where
  kind : MoveKind
  changes : Changes := {}
  /-- Where the blocks came from that packing moved. -/
  moved : List (Origin α) := []
  /-- The raw values of the terms before the move. -/
  raw : List α := []
  deriving DecidableEq, Repr

/-- Whether the move changed neither sequences nor shapes. -/
def Move.isNoop {α : Type} (m : Move α) : Bool := m.changes.isEmpty

end BlockPlan
