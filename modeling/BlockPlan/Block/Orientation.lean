/-!
# Orientations and shape keys

A hard block is set down in one of six orientations; a soft block takes one of its numbered
candidate shapes.  A `ShapeKey` is either choice.
-/

namespace BlockPlan

/-- The six ways a hard block may be set down. -/
inductive Orientation where
  | r0 | r90 | r180 | r270
  /-- Flipped about the x axis. -/
  | mx
  /-- Flipped about the y axis. -/
  | my
  deriving DecidableEq, Repr

namespace Orientation

/-- Whether width and height change places. -/
def swapsAxes : Orientation → Bool
  | .r90 | .r270 => true
  | _ => false

/-- The word for an orientation. -/
def word : Orientation → String
  | .r0 => "R0"
  | .r90 => "R90"
  | .r180 => "R180"
  | .r270 => "R270"
  | .mx => "MX"
  | .my => "MY"

/-- Reads an orientation. -/
def ofWord? : String → Option Orientation
  | "R0" => some .r0
  | "R90" => some .r90
  | "R180" => some .r180
  | "R270" => some .r270
  | "MX" => some .mx
  | "MY" => some .my
  | _ => none

/-- Every orientation is read back from its word. -/
theorem ofWord?_word (o : Orientation) : ofWord? o.word = some o := by
  cases o <;> rfl

end Orientation

/-- What selects one of the shapes of a block: an orientation of a hard block, or the number of a
candidate of a soft one. -/
inductive ShapeKey where
  | orientation (o : Orientation)
  | candidate (index : Int)
  deriving DecidableEq, Repr

/-- The name of a shape key in a message. -/
def ShapeKey.label : ShapeKey → String
  | .orientation o => "Orientation." ++ o.word
  | .candidate i => toString i

end BlockPlan
