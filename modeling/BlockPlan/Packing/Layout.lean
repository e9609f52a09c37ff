import BlockPlan.Block.Reshape
import BlockPlan.Packing.SequencePair
import BlockPlan.Packing.Staircase

/-!
# Packing blocks from a sequence pair

A layout is a list of blocks with a sequence pair for them.  Packing moves every block as far left
and down as the relative positions allow: the left edge of a block is the largest right edge of the
blocks left of it, and likewise for the lower edge.

Each axis is one sweep along a sequence with a staircase.  Left neighbours of a block precede it in
the positive sequence and have smaller slots in the negative one; lower neighbours precede it in the
negative sequence and have larger slots in the positive one.  A sweep may leave the blocks in front
of a slot where they are, so that after a local change only the blocks behind it have to move.
-/

namespace BlockPlan

variable {α : Type}

/-- The two axes. -/
inductive Axis where
  | x | y
  deriving DecidableEq, Repr

namespace Block

/-- The coordinate of the lower left corner along an axis. -/
def coordinate (axis : Axis) (b : Block α) : α :=
  match axis with
  | .x => b.x
  | .y => b.y

/-- The side along an axis. -/
def extent (axis : Axis) (b : Block α) : α :=
  match axis with
  | .x => b.width
  | .y => b.height

/-- Moves the block along an axis. -/
def moveTo (axis : Axis) (v : α) (b : Block α) : Block α :=
  match axis with
  | .x => { b with x := v }
  | .y => { b with y := v }

end Block

/-- Where a block stood before it moved. -/
structure Origin (α : Type) where
  block : Nat
  x : α
  y : α
  deriving DecidableEq, Repr

/-- Blocks and a sequence pair for them. -/
structure Layout (α : Type) where
  blocks : List (Block α)
  pair : SequencePair
  deriving DecidableEq, Repr

namespace Layout

variable [Scalar α]

omit [Scalar α] in
/-- The number of blocks. -/
def size (l : Layout α) : Nat := l.blocks.length

omit [Scalar α] in
/-- The blocks where they are, with both sequences in their order. -/
def ofBlocks (blocks : List (Block α)) : Layout α := ⟨blocks, .ordered blocks.length⟩

/-! ## Edits of the sequences and of single blocks -/

omit [Scalar α] in
/-- Changes the sequence pair, or fails and changes nothing. -/
def editPair (f : SequencePair → Except (Fault α) SequencePair) : Edit α (Layout α) Unit := do
  let l ← get
  let pair ← Edit.ofExcept (f l.pair)
  set { l with pair := pair }

omit [Scalar α] in
/-- Installs two sequences, which have to be permutations of the blocks. -/
def setSequences (positive negative : List Int) : Edit α (Layout α) Unit := do
  let l ← get
  editPair fun _ => SequencePair.ofPermutations l.size positive negative

omit [Scalar α] in
/-- Edits the block in a slot of the list of blocks. -/
def editBlock {β : Type} (slot : Int) (edit : Edit α (Block α) β) : Edit α (Layout α) β :=
  Edit.within Layout.blocks (fun bs l => { l with blocks := bs }) (Block.editAt slot edit)

/-- Puts a shape of a block in force. -/
def setShape (slot : Int) (key : ShapeKey) : Edit α (Layout α) Unit :=
  editBlock slot (Block.setShape key)

omit [Scalar α] in
/-- Puts a block at a point. -/
def place (slot : Int) (x y : α) : Edit α (Layout α) Unit :=
  editBlock slot (modify (Block.place x y))

/-! ## Packing -/

/-- Sweeps along a sequence whose first entry has slot `slot`.  Blocks from slot `start` on are
moved to the value that the staircase has for their key; every block then raises the staircase to
its far edge. -/
def sweep (axis : Axis) (key : Nat → Int) (start : Int) :
    (slot : Nat) → List Nat → Staircase α → List (Block α) → List (Block α)
  | _, [], _, blocks => blocks
  | slot, i :: rest, stair, blocks =>
    match blocks[i]? with
    | none => sweep axis key start (slot + 1) rest stair blocks
    | some b =>
      let moved := if start ≤ slot then b.moveTo axis (stair.query (key i)) else b
      sweep axis key start (slot + 1) rest
        (stair.insert (key i) (moved.coordinate axis + moved.extent axis)) (blocks.set i moved)

/-- Packs along x the blocks from a slot of the positive sequence on. -/
def packX (start : Int) (l : Layout α) : Layout α :=
  { l with blocks := sweep .x (l.pair.slotIn .negative) start 0 l.pair.positive {} l.blocks }

/-- Packs along y the blocks from a slot of the negative sequence on. -/
def packY (start : Int) (l : Layout α) : Layout α :=
  let last : Int := (l.size : Int) - 1
  { l with
    blocks :=
      sweep .y (fun i => last - l.pair.slotIn .positive i) start 0 l.pair.negative {} l.blocks }

/-- Packs all blocks along both axes. -/
def pack (l : Layout α) : Layout α := (l.packX 0).packY 0

omit [Scalar α] in
/-- The blocks in either sequence from the given slots on, in increasing order. -/
def touched (l : Layout α) (positiveFrom negativeFrom : Int) : List Nat :=
  let xs := Slot.suffix l.pair.positive positiveFrom
  let ys := Slot.suffix l.pair.negative negativeFrom
  (List.range l.size).filter fun i => xs.contains i || ys.contains i

/-- Where some blocks stand. -/
def origins (l : Layout α) (blocks : List Nat) : List (Origin α) :=
  blocks.filterMap fun i => (l.blocks[i]?).map fun b => ⟨i, b.x, b.y⟩

/-- Whether the block of an origin stands elsewhere now. -/
def hasLeft (l : Layout α) (o : Origin α) : Bool :=
  match l.blocks[o.block]? with
  | some b => b.x != o.x || b.y != o.y
  | none => false

/-- Packs along x from one slot on and along y from another, and answers where the blocks that moved
came from. -/
def repack (positiveFrom negativeFrom : Int) (l : Layout α) : List (Origin α) × Layout α :=
  let before := l.origins (l.touched positiveFrom negativeFrom)
  let packed := (l.packX positiveFrom).packY negativeFrom
  (before.filter packed.hasLeft, packed)

omit [Scalar α] in
/-- Puts blocks back to where they came from. -/
def restore (origins : List (Origin α)) (l : Layout α) : Layout α :=
  { l with blocks := origins.foldl (fun bs o => bs.modify o.block (Block.place o.x o.y)) l.blocks }

/-- The extent of the layout from the origin; zero without blocks. -/
def boundingSides (l : Layout α) : α × α :=
  match l.blocks with
  | [] => (0, 0)
  | b :: rest =>
    (Scalar.largest b.xMax (rest.map Block.xMax), Scalar.largest b.yMax (rest.map Block.yMax))

end Layout

end BlockPlan
