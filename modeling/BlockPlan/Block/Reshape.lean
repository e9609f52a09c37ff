import BlockPlan.Block.Basic
import BlockPlan.Draws.Basic
import BlockPlan.Sequence.Slot

/-!
# Changing the shape of a block

The shape in force is set by a key (`Block.setShape`), at random (`Block.alternate` for hard blocks,
`Block.resize` for soft ones) or by taking the next smaller candidate (`Block.shrink`).  Each of the
last three answers the key that was in force before, so that setting it again undoes the change.
`Block.stretch` sets the sides of a block directly and leaves the choice of shape alone.
-/

namespace BlockPlan.Block

variable {α ρ : Type} [Scalar α]

/-- Puts the shape with a key in force.  A hard block refuses what is not among its orientations.
A soft block takes the number of a candidate as it is, from the end of the list when it is negative,
and keeps it even when the list has no such candidate. -/
def setShape (key : ShapeKey) : Edit α (Block α) Unit := do
  let b ← get
  match b.form, key with
  | .hard w h allowed _, .orientation o =>
    if allowed.contains o then
      let sides := orientedSides w h o
      set { b with form := .hard w h allowed o, width := sides.1, height := sides.2 }
    else throw (.shapeNotAllowed b.name key)
  | .soft candidates _, .candidate i =>
    set { b with form := .soft candidates i }
    let (w, h) ← Edit.ofExcept (Slot.entry candidates i)
    set { b with form := .soft candidates i, width := w, height := h }
  | _, _ => throw (.shapeNotAllowed b.name key)

/-- Takes another allowed orientation at random and answers the former one.  A block with a single
orientation keeps it, and nothing is drawn. -/
def alternate [DrawSource ρ α] : Edit α (Drawn (Block α) ρ) ShapeKey := do
  let b := (← get).state
  match b.form with
  | .hard _ _ allowed o =>
    if allowed.length < 2 then pure b.shapeKey
    else
      let choices := allowed.filter (· != o)
      let i ← Edit.drawBelow choices.length
      match choices[i]? with
      | some o => Edit.onState (setShape (.orientation o))
      | none => throw .slotOutOfRange
      pure b.shapeKey
  | .soft .. => pure b.shapeKey

/-- Takes another candidate at random and answers the number of the former one.  A block with a
single candidate keeps it, and nothing is drawn. -/
def resize [DrawSource ρ α] : Edit α (Drawn (Block α) ρ) ShapeKey := do
  let b := (← get).state
  match b.form with
  | .soft candidates old =>
    if candidates.length < 2 then pure b.shapeKey
    else
      let drawn : Int := (← Edit.drawBelow (candidates.length - 1) : Nat)
      Edit.onState (setShape (.candidate (if old ≤ drawn then drawn + 1 else drawn)))
      pure b.shapeKey
  | .hard .. => pure b.shapeKey

/-- The side of a candidate along an axis. -/
def sideAlong (horizontal : Bool) (c : α × α) : α := if horizontal then c.1 else c.2

/-- The place of the candidate with the largest side below `limit` along an axis, the first of
several; `best` is the best one before place `p`, with its side. -/
def nextSmaller (horizontal : Bool) (limit : α) (best : Option (Nat × α)) (p : Nat) :
    List (α × α) → Option (Nat × α)
  | [] => best
  | c :: rest =>
    let side := sideAlong horizontal c
    let improves := match best with
      | none => true
      | some (_, bestSide) => decide (bestSide < side)
    nextSmaller horizontal limit
      (if decide (side < limit) && improves then some (p, side) else best) (p + 1) rest

/-- Takes the next smaller candidate along an axis and answers the number of the former one, or
nothing when no candidate is smaller. -/
def shrink (horizontal : Bool) : Edit α (Block α) (Option ShapeKey) := do
  let b ← get
  match b.form with
  | .soft candidates index =>
    let current ← Edit.ofExcept (Slot.entry candidates index)
    match nextSmaller horizontal (sideAlong horizontal current) none 0 candidates with
    | none => pure none
    | some (p, _) =>
      setShape (.candidate p)
      pure (some (.candidate index))
  | .hard .. => pure none

omit [Scalar α] in
/-- Sets position and sides; the shape in force stays as it is. -/
def stretch (x y width height : α) (b : Block α) : Block α :=
  { b with x := x, y := y, width := width, height := height }

/-! ## Blocks in a list -/

omit [Scalar α] in
/-- Edits the block in a slot of a list of blocks. -/
def editAt {β : Type} (slot : Int) (edit : Edit α (Block α) β) : Edit α (List (Block α)) β := do
  let blocks ← get
  let i ← Edit.ofExcept (Slot.place blocks.length slot)
  match blocks[i]? with
  | none => throw .slotOutOfRange
  | some b => Edit.within (fun _ => b) (fun b blocks => blocks.set i b) edit

end BlockPlan.Block
