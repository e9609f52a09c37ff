import BlockPlan.Block.Basic

/-!
# One line about a block
-/

namespace BlockPlan.Block

/-- Kind, name, sides, position and shape of a block. -/
def describe (b : Block Float) : String :=
  let x := Decimal.fixedText 1 b.x
  let y := Decimal.fixedText 1 b.y
  let w := Decimal.fixedText 1 b.width
  let h := Decimal.fixedText 1 b.height
  let name := b.name
  match b.form with
  | .hard _ _ _ o => s!"HardMacro('{name}', {w}×{h}, pos=({x},{y}), " ++ o.word ++ ")"
  | .soft _ i => s!"SoftMacro('{name}', {w}×{h}, pos=({x},{y}), shape={i})"

end BlockPlan.Block
