import BlockPlan.Annealer.Plan

/-!
# Making a move and taking it back

`Plan.perturb` draws the kind of a move, makes it, packs anew what it can have displaced and
measures the terms.  `Plan.restore` undoes the last move from its record, exactly.

A move that has nothing to act on becomes another one: resizing and shrinking without a soft block
that has a choice, and rotating without such a hard block, become an exchange of two slots of the
positive sequence; shrinking a block that has no smaller candidate becomes resizing it.
-/

namespace BlockPlan

variable {α ρ : Type} [Scalar α]

open Scalar (larger)

/-- What a move has done: its kind in the end, what it changed, and the blocks it touched. -/
structure Step where
  kind : MoveKind
  changes : Changes
  touched : List Nat
  deriving DecidableEq, Repr

namespace Layout

omit [Scalar α] in
/-- The blocks with a choice of shapes, hard ones or soft ones. -/
def choosable (hard : Bool) (l : Layout α) : List Nat :=
  (l.blocks.zipIdx.filter fun (b, _) => b.isHard == hard && decide (1 < b.shapeCount)).map (·.2)

/-- How far a block sticks out to the right and to the top. -/
def overflowOf (width height : α) (l : Layout α) (i : Nat) : α × α :=
  match l.blocks[i]? with
  | some b => (larger 0 (b.xMax - width), larger 0 (b.yMax - height))
  | none => (0, 0)

section Draws

variable [DrawSource ρ α]

omit [Scalar α] in
/-- Two different numbers below a bound of at least two; the second is drawn below one less and
moved past the first. -/
def twoDistinct (n : Nat) : Edit α (Drawn (Layout α) ρ) (Nat × Nat) := do
  let first ← Edit.drawBelow n
  let second ← Edit.drawBelow (n - 1)
  pure (first, if first ≤ second then second + 1 else second)

omit [Scalar α] in
/-- One of some blocks at random. -/
def drawBlock (pool : List Nat) : Edit α (Drawn (Layout α) ρ) Nat := do
  let i ← Edit.drawBelow pool.length
  match pool[i]? with
  | some block => pure block
  | none => throw .slotOutOfRange

/-- Edits a block together with the draws. -/
def editDrawn {β : Type} (i : Nat) (edit : Edit α (Drawn (Block α) ρ) β) :
    Edit α (Drawn (Layout α) ρ) β := do
  let l := (← get).state
  match l.blocks[i]? with
  | none => throw .slotOutOfRange
  | some b =>
    Edit.within (fun t => ⟨b, t.draws⟩)
      (fun c t =>
        { t with state := { t.state with blocks := l.blocks.set i c.state }, draws := c.draws })
      edit

/-! ## The moves -/

omit [Scalar α] in
/-- Exchanges two slots of a sequence. -/
def sequenceSwap (sign : Sign) (kind : MoveKind) : Edit α (Drawn (Layout α) ρ) Step := do
  let n := (← get).state.size
  if n < 2 then pure ⟨kind, {}, []⟩
  else
    let (a, b) ← twoDistinct n
    Edit.onState (editPair (SequencePair.swap sign a b))
    let sequence := (← get).state.pair.sequence sign
    pure ⟨kind, .ofSwaps sign [((a : Int), (b : Int))], [sequence.getD a 0, sequence.getD b 0]⟩

omit [Scalar α] in
/-- Exchanges two slots in either sequence. -/
def doubleSwap : Edit α (Drawn (Layout α) ρ) Step := do
  let first ← sequenceSwap .positive .doubleSwap
  let second ← sequenceSwap .negative .doubleSwap
  pure ⟨.doubleSwap,
    { positiveSwaps := first.changes.positiveSwaps, negativeSwaps := second.changes.negativeSwaps },
    first.touched ++ second.touched⟩

omit [Scalar α] in
/-- Exchanges two blocks in both sequences. -/
def exchange : Edit α (Drawn (Layout α) ρ) Step := do
  let l := (← get).state
  if l.size < 2 then pure ⟨.exchange, {}, []⟩
  else
    let (a, b) ← twoDistinct l.size
    let positive := (l.pair.slotIn .positive a, l.pair.slotIn .positive b)
    let negative := (l.pair.slotIn .negative a, l.pair.slotIn .negative b)
    Edit.onState (editPair (SequencePair.swap .positive positive.1 positive.2))
    Edit.onState (editPair (SequencePair.swap .negative negative.1 negative.2))
    pure ⟨.exchange, { positiveSwaps := [positive], negativeSwaps := [negative] }, [a, b]⟩

/-- Gives one of the hard blocks with a choice of shapes, or one of the soft ones, another shape. -/
def reshape (hard : Bool) (kind : MoveKind) (edit : Edit α (Drawn (Block α) ρ) ShapeKey) :
    Edit α (Drawn (Layout α) ρ) Step := do
  let pool := (← get).state.choosable hard
  if pool.isEmpty then sequenceSwap .positive .positiveSwap
  else
    let i ← drawBlock pool
    let old ← editDrawn i edit
    pure ⟨kind, { shapes := [(i, old)] }, [i]⟩

/-- Gives a soft block another candidate shape. -/
def resize : Edit α (Drawn (Layout α) ρ) Step := reshape false .resize Block.resize

/-- Gives a hard block another orientation. -/
def rotate : Edit α (Drawn (Layout α) ρ) Step := reshape true .rotate Block.alternate

/-- Shrinks a soft block along an axis, or else along the other one, or else resizes it.  Answers
the kind of move that this is, and the former shape key. -/
def shrinkBlock (horizontal : Bool) : Edit α (Drawn (Block α) ρ) (MoveKind × ShapeKey) := do
  match ← Edit.onState (Block.shrink horizontal) with
  | some old => pure (.shrink, old)
  | none =>
    match ← Edit.onState (Block.shrink !horizontal) with
    | some old => pure (.shrink, old)
    | none => do pure (.resize, ← Block.resize)

/-- Shrinks a soft block, one that sticks out of the outline if there is any, along the axis on
which it sticks out more. -/
def shrink (width height : α) : Edit α (Drawn (Layout α) ρ) Step := do
  let l := (← get).state
  let pool := l.choosable false
  if pool.isEmpty then sequenceSwap .positive .positiveSwap
  else
    let outside := pool.filter fun i =>
      let (x, y) := l.overflowOf width height i
      x != 0 || y != 0
    let i ← drawBlock (if outside.isEmpty then pool else outside)
    let (x, y) := l.overflowOf width height i
    let (kind, old) ← editDrawn i (shrinkBlock (decide (y ≤ x)))
    pure ⟨kind, { shapes := [(i, old)] }, [i]⟩

/-- Makes a move of a given kind. -/
def makeMove (width height : α) : MoveKind → Edit α (Drawn (Layout α) ρ) Step
  | .positiveSwap => sequenceSwap .positive .positiveSwap
  | .negativeSwap => sequenceSwap .negative .negativeSwap
  | .doubleSwap => doubleSwap
  | .exchange => exchange
  | .resize => resize
  | .shrink => shrink width height
  | .rotate => rotate

/-- Packs anew what a change of the given blocks can have displaced. -/
def repackFrom (blocks : List Nat) : Edit α (Layout α) (List (Origin α)) := do
  if blocks.isEmpty then pure []
  else
    let l ← get
    let (a, b) ← Edit.ofExcept (l.pair.firstSlots (blocks.map fun (i : Nat) => (i : Int)))
    let (moved, l) := l.repack a b
    set l
    pure moved

end Draws

/-- Undoes the changes of a move, the last one first. -/
def revert (c : Changes) : Edit α (Layout α) Unit := do
  c.negativeSwaps.reverse.forM fun (a, b) => editPair (SequencePair.swap .negative a b)
  c.positiveSwaps.reverse.forM fun (a, b) => editPair (SequencePair.swap .positive a b)
  c.shapes.reverse.forM fun (i, key) => setShape i key

end Layout

namespace Plan

/-- The share of the cost above which resizing gives way to shrinking. -/
def dominance : α := Scalar.ratio 1 2

/-- Whether most of the cost comes from blocks that stick out of the outline. -/
def outlineDominates (setup : Setup α) (p : Plan α) : Except (Fault α) Bool :=
  if setup.objective.enabled .outline && decide (0 < p.tally.raw.outline) then do
    let outline ← p.tally.costOfTerm setup.objective.weights .outline
    let total ← p.cost setup
    pure (decide (dominance * total < outline))
  else .ok false

/-- Makes a random move.  All terms are measured, or only those with a weight. -/
def perturb [DrawSource ρ α] (setup : Setup α) (everything : Bool) :
    Edit α (Drawn (Plan α) ρ) Unit := do
  let draw ← Edit.drawUnit
  let p := (← get).state
  let drawn := setup.table.pick draw
  let kind ←
    if drawn = .resize then do
      if ← Edit.ofExcept (p.outlineDominates setup) then pure .shrink else pure drawn
    else pure drawn
  let step ← Edit.within (fun t => ⟨t.state.layout, t.draws⟩)
    (fun c t => { t with state := { t.state with layout := c.state }, draws := c.draws })
    (Layout.makeMove setup.objective.outlineWidth setup.objective.outlineHeight kind)
  Edit.onState do
    let moved ← onLayout (Layout.repackFrom step.touched)
    evaluate setup everything
    modify fun q => { q with lastMove := some ⟨step.kind, step.changes, moved, p.tally.raw.toList⟩ }

/-- Takes the last move back; without one, nothing happens. -/
def restore : Edit α (Plan α) Unit := do
  match (← get).lastMove with
  | none => pure ()
  | some m =>
    onLayout (Layout.revert m.changes)
    onLayout (modify (Layout.restore m.moved))
    modify fun p => { p with tally := p.tally.load m.raw }
    forget

/-- The plans of a setup as a space to be searched. -/
def space [DrawSource ρ α] (setup : Setup α) : SearchSpace α (Plan α) ρ (Kept α) where
  perturb := perturb setup false
  restore := restore
  cost := Plan.cost setup
  keep := keep
  load := load

end Plan

end BlockPlan
