import BlockPlan.Packing.Layout

/-!
# Snapshots of a layout

A snapshot keeps the sequences, the shape keys and the positions of a layout, and can be loaded
again with its positions or by packing anew.
-/

namespace BlockPlan

variable {α : Type}

/-- What is kept of a layout. -/
structure Snapshot (α : Type) where
  positive : List Nat
  negative : List Nat
  keys : List ShapeKey
  points : List (α × α)
  deriving DecidableEq, Repr

namespace Layout

/-- The snapshot of a layout. -/
def snapshot (l : Layout α) : Snapshot α where
  positive := l.pair.positive
  negative := l.pair.negative
  keys := l.blocks.map Block.shapeKey
  points := l.blocks.map fun b => (b.x, b.y)

variable [Scalar α]

/-- Puts the shapes with the given keys in force, block by block from slot `i` on. -/
def setShapes : (i : Nat) → List ShapeKey → Edit α (Layout α) Unit
  | _, [] => pure ()
  | i, key :: rest => do
    if i < (← get).size then
      setShape i key
      setShapes (i + 1) rest

/-- Sequences, shapes and positions of a snapshot; or, without its positions, the packing of its
sequences and shapes. -/
def load (positions : Bool) (s : Snapshot α) : Edit α (Layout α) Unit := do
  modify fun l => { l with pair := .ofSequences l.size s.positive s.negative }
  setShapes 0 s.keys
  if positions then
    modify fun l =>
      { l with
        blocks := l.blocks.mapIdx fun i b =>
          match s.points[i]? with
          | some (x, y) => b.place x y
          | none => b }
  else modify pack

end Layout

end BlockPlan
