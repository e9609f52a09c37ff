import BlockPlan.Annealer.Plan

/-!
# Filling dead space

Soft blocks that lie inside the outline grow into the free cells around them: to the left and to the
right, then down and up, each time by a whole column or row of cells that are all free.  Blocks and
blockages stop the growth, and what one block has taken is no longer free for the next.
-/

namespace BlockPlan

variable {α : Type} [Scalar α]

namespace Grid

/-- One step of growth towards lower indices: takes the strip in front of `first` as long as it is
free.  `strip` gives the region of the strip between two cuts. -/
def growDown (strip : Int → Int → Region) (owner : Cell) : (first : Nat) → Grid α → Nat × Grid α
  | 0, g => (0, g)
  | first + 1, g =>
    let region := strip first (first + 1)
    if g.isFree region then growDown strip owner first (g.fill region owner) else (first + 1, g)

/-- Growth towards higher indices, past at most `room` further strips behind `last`. -/
def growUp (strip : Int → Int → Region) (owner : Cell) :
    (room : Nat) → (last : Nat) → Grid α → Nat × Grid α
  | 0, last, g => (last, g)
  | room + 1, last, g =>
    let region := strip last (last + 1)
    if g.isFree region then growUp strip owner room (last + 1) (g.fill region owner) else (last, g)

/-- Lets the block of number `i` grow on the grid. -/
def growBlock (i : Nat) (b : Block α) (g : Grid α) : Block α × Grid α :=
  let ((left, right), (bottom, top)) := g.span b.box
  if right ≤ left ∨ top ≤ bottom then (b, g)
  else
    let owner := Cell.owned i
    let column (c d : Int) : Region := ⟨(bottom, top), (c, d)⟩
    let (left, g) := growDown column owner left.toNat g
    let (right, g) := growUp column owner (g.columnCount - right).toNat right.toNat g
    let row (c d : Int) : Region := ⟨(c, d), (left, right)⟩
    let (bottom, g) := growDown row owner bottom.toNat g
    let (top, g) := growUp row owner (g.rowCount - top).toNat top.toNat g
    let x := g.xLines.getD left 0
    let y := g.yLines.getD bottom 0
    (b.stretch x y (g.xLines.getD right 0 - x) (g.yLines.getD top 0 - y), g)

/-- Lets the soft blocks inside an outline grow, one after the other. -/
def growBlocks (width height : α) : (i : Nat) → List (Block α) → Grid α → List (Block α)
  | _, [], _ => []
  | i, b :: rest, g =>
    if b.isSoft && b.isInside width height then
      let (b, g) := growBlock i b g
      b :: growBlocks width height (i + 1) rest g
    else b :: growBlocks width height (i + 1) rest g

end Grid

/-- The blocks after filling the dead space between them. -/
def Objective.fillDeadSpace (o : Objective α) (blocks : List (Block α)) : List (Block α) :=
  Grid.growBlocks o.outlineWidth o.outlineHeight 0 blocks (o.grid blocks)

/-- Fills the dead space of a plan and measures all terms. -/
def Plan.fill (setup : Setup α) : Edit α (Plan α) Unit := do
  onLayout (modify fun l => { l with blocks := setup.objective.fillDeadSpace l.blocks })
  evaluate setup true
  forget

end BlockPlan
