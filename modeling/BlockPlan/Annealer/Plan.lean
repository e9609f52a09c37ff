import BlockPlan.Cost.Tally
import BlockPlan.Moves.Table
import BlockPlan.Packing.Shelf
import BlockPlan.Packing.Snapshot
import BlockPlan.Search.Annealing

/-!
# A plan and what it is a plan for

A `Setup` is what stays fixed while blocks are being placed: the design, what layouts are judged by,
how moves are drawn and how the search cools down.  A `Plan` is what changes: the layout, the tally
of its terms, and the record of the last move, which can be taken back as long as nothing else has
replaced it.
-/

namespace BlockPlan

variable {α : Type}

/-- What stays fixed while blocks are being placed. -/
structure Setup (α : Type) where
  /-- The design as it was given, with its blocks where they stood. -/
  design : Design α
  objective : Objective α
  table : MoveTable α
  schedule : Schedule α
  /-- The sequences to start from, in place of the shelves. -/
  initial : Option (List Int × List Int)

/-- A layout, the tally of its terms, and the last move. -/
structure Plan (α : Type) where
  layout : Layout α
  tally : Tally α
  lastMove : Option (Move α)
  deriving DecidableEq, Repr

/-- What is kept of a plan. -/
structure Kept (α : Type) where
  layout : Snapshot α
  raw : PerTerm α
  deriving DecidableEq, Repr

/-- The choices beside the design from which a setup is made. -/
structure Settings (α : Type) [Scalar α] where
  weights : Weights α := Weights.standard
  shares : MoveShares α := MoveShares.standard
  schedule : Schedule α := Schedule.standard
  notchWidth : α := 0
  notchHeight : α := 0
  initial : Option (List Int × List Int) := none

variable [Scalar α]

/-- The setup of a design and the plan to begin with.  The settings are checked before the design,
and the seed, the thresholds and the initial sequences after it. -/
def Setup.ofDesign (d : Design α) (s : Settings α) : Except (Fault α) (Setup α × Plan α) := do
  s.schedule.validate
  s.weights.validate
  let table ← MoveTable.ofShares s.shares
  d.validate
  if s.schedule.seed < 0 then throw .negativeSeed
  let objective ← Objective.ofDesign d s.weights s.notchWidth s.notchHeight
  let layout := Layout.ofBlocks d.blocks
  let layout ← match s.initial with
    | none => pure layout
    | some (positive, negative) => do
      let pair ← SequencePair.ofPermutations layout.size positive negative
      pure { layout with pair := pair }
  pure (⟨d, objective, table, s.schedule, s.initial⟩, ⟨layout, Tally.initial, none⟩)

namespace Plan

omit [Scalar α] in
/-- Edits the layout of a plan. -/
def onLayout {β : Type} (edit : Edit α (Layout α) β) : Edit α (Plan α) β :=
  Edit.within Plan.layout (fun l p => { p with layout := l }) edit

/-- Measures the terms of the layout at hand. -/
def evaluate (setup : Setup α) (everything : Bool) : Edit α (Plan α) Unit := do
  let p ← get
  Edit.within Plan.tally (fun t p => { p with tally := t })
    (Tally.evaluate setup.objective everything p.layout)

/-- The cost of the raw values at hand. -/
def cost (setup : Setup α) (p : Plan α) : Except (Fault α) α :=
  p.tally.total setup.objective.weights

omit [Scalar α] in
/-- The design with its blocks where the plan has them. -/
def design (setup : Setup α) (p : Plan α) : Design α :=
  { setup.design with blocks := p.layout.blocks }

omit [Scalar α] in
/-- What is kept of a plan. -/
def keep (p : Plan α) : Kept α := ⟨p.layout.snapshot, p.tally.raw⟩

omit [Scalar α] in
/-- Forgets the last move. -/
def forget : Edit α (Plan α) Unit := modify fun p => { p with lastMove := none }

/-- Loads what was kept of a plan. -/
def load (k : Kept α) : Edit α (Plan α) Unit := do
  onLayout (Layout.load true k.layout)
  modify fun p => { p with tally := { p.tally with raw := k.raw } }
  forget

end Plan

end BlockPlan
