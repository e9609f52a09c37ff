import BlockPlan.Rect

/-!
# Blocks

A block is a rectangle to be placed.  A *hard* block has fixed base sides and a list of
orientations it may take; a *soft* block has a list of candidate shapes that share one area.  The
sides a block shows at the moment are stored with it, since a soft block may also be stretched
beyond its candidates.

* `Block.hard`, `Block.soft`, `Block.softOfArea` — the ways to make a block, each of which refuses
  what makes no sense.
* `Block.WellFormed` — what these functions promise of the block they make.
-/

namespace BlockPlan

variable {α : Type}

/-- What a block may look like, and the choice that is in force. -/
inductive Form (α : Type) where
  | hard (baseWidth baseHeight : α) (allowed : List Orientation) (orientation : Orientation)
  | soft (candidates : List (α × α)) (index : Int)
  deriving DecidableEq, Repr

/-- A rectangle to be placed. -/
structure Block (α : Type) where
  name : String
  form : Form α
  x : α
  y : α
  width : α
  height : α
  /-- Whether the block is drawn towards the edges of the outline. -/
  prefersEdge : Bool
  deriving DecidableEq, Repr

/-- The share of an area by which the candidates of a soft block may differ. -/
def areaTolerance [Scalar α] : α := Scalar.ratio 1 1000000

/-- The sides of a hard block in an orientation. -/
def orientedSides (baseWidth baseHeight : α) (o : Orientation) : α × α :=
  if o.swapsAxes then (baseHeight, baseWidth) else (baseWidth, baseHeight)

namespace Block

variable [Scalar α]

open Scalar (half)

def area (b : Block α) : α := b.width * b.height

def center (b : Block α) : α × α := (b.x + half b.width, b.y + half b.height)

/-- The right edge. -/
def xMax (b : Block α) : α := b.x + b.width

/-- The upper edge. -/
def yMax (b : Block α) : α := b.y + b.height

/-- The region that the block covers. -/
def box (b : Block α) : Box α := ⟨b.x, b.y, b.xMax, b.yMax⟩

/-- Whether the block lies within an outline with its lower left corner at the origin. -/
def isInside (width height : α) (b : Block α) : Bool :=
  decide (0 ≤ b.x) && decide (0 ≤ b.y) && decide (b.xMax ≤ width) && decide (b.yMax ≤ height)

omit [Scalar α] in
/-- The choice of shape that is in force. -/
def shapeKey (b : Block α) : ShapeKey :=
  match b.form with
  | .hard _ _ _ o => .orientation o
  | .soft _ i => .candidate i

omit [Scalar α] in
/-- How many shapes there are to choose from. -/
def shapeCount (b : Block α) : Nat :=
  match b.form with
  | .hard _ _ allowed _ => allowed.length
  | .soft candidates _ => candidates.length

omit [Scalar α] in
/-- The candidate shapes of a soft block. -/
def candidates (b : Block α) : List (α × α) :=
  match b.form with
  | .hard .. => []
  | .soft candidates _ => candidates

/-- The area that the candidates of a soft block share. -/
def requiredArea (b : Block α) : α :=
  match b.candidates with
  | (w, h) :: _ => w * h
  | [] => 0

omit [Scalar α] in
def isHard (b : Block α) : Bool :=
  match b.form with
  | .hard .. => true
  | .soft .. => false

omit [Scalar α] in
def isSoft (b : Block α) : Bool := !b.isHard

omit [Scalar α] in
/-- Puts the lower left corner at a point. -/
def place (x y : α) (b : Block α) : Block α := { b with x := x, y := y }

/-! ## Making blocks -/

/-- What a block is given beside its name and shapes. -/
structure Placement (α : Type) [Scalar α] where
  x : α := 0
  y : α := 0
  prefersEdge : Bool := false

/-- A hard block of positive base sides, in one of its allowed orientations. -/
def hard (name : String) (width height : α) (allowed : List Orientation) (o : Orientation)
    (spot : Placement α) : Except (Fault α) (Block α) :=
  if width ≤ 0 ∨ height ≤ 0 then .error (.hardSides name width height)
  else if allowed.isEmpty then .error (.noOrientation name)
  else if !allowed.contains o then .error (.orientationNotListed name o)
  else
    let sides := orientedSides width height o
    .ok ⟨name, .hard width height allowed o, spot.x, spot.y, sides.1, sides.2, spot.prefersEdge⟩

/-- Refuses the first candidate that has a side up to zero. -/
def checkCandidateSides (name : String) : List (α × α) → Except (Fault α) Unit
  | [] => .ok ()
  | (w, h) :: rest =>
    if w ≤ 0 ∨ h ≤ 0 then .error (.candidateSides name w h) else checkCandidateSides name rest

/-- Refuses the first candidate whose area is not the expected one. -/
def checkCandidateAreas (name : String) (expected : α) : List (α × α) → Except (Fault α) Unit
  | [] => .ok ()
  | (w, h) :: rest =>
    if Scalar.isClose areaTolerance (w * h) expected then checkCandidateAreas name expected rest
    else .error (.candidateArea name w h (w * h) expected)

/-- A soft block with candidates of positive sides and one area, in one of them. -/
def soft (name : String) (candidates : List (α × α)) (index : Int) (spot : Placement α) :
    Except (Fault α) (Block α) := do
  match candidates with
  | [] => throw (.noCandidate name)
  | (w, h) :: rest =>
    checkCandidateSides name candidates
    checkCandidateAreas name (w * h) rest
    if index < 0 then throw (.candidateIndex name index)
    match candidates[index.toNat]? with
    | none => throw (.candidateIndex name index)
    | some (w, h) => pure ⟨name, .soft candidates index, spot.x, spot.y, w, h, spot.prefersEdge⟩

/-- The candidate of a given area and ratio of width to height. -/
def candidateOfRatio [Transcendental α] (area ratio : α) : Except (Fault α) (α × α) :=
  if ratio ≤ 0 then .error (.aspectRatio ratio)
  else do
    let width := Transcendental.sqrt (area * ratio)
    pure (width, ← divide area width)

/-- A soft block of a positive area, with one candidate for each ratio of width to height. -/
def softOfArea [Transcendental α] (name : String) (area : α) (ratios : List α) (index : Int)
    (spot : Placement α) : Except (Fault α) (Block α) :=
  if area ≤ 0 then .error (.softArea name)
  else do soft name (← ratios.mapM (candidateOfRatio area)) index spot

/-! ## What making a block promises -/

/-- The sides are those of the shape in force. -/
def ShowsShape (b : Block α) : Prop :=
  match b.form with
  | .hard w h allowed o => o ∈ allowed ∧ (b.width, b.height) = orientedSides w h o
  | .soft candidates index => 0 ≤ index ∧ candidates[index.toNat]? = some (b.width, b.height)

/-- All shapes of the block have positive sides. -/
def PositiveShapes (b : Block α) : Prop :=
  match b.form with
  | .hard w h _ _ => 0 < w ∧ 0 < h
  | .soft candidates _ => ∀ c ∈ candidates, 0 < c.1 ∧ 0 < c.2

/-- A block as it is made: it shows the shape in force, and its shapes have positive sides. -/
structure WellFormed (b : Block α) : Prop where
  showsShape : b.ShowsShape
  positive : b.PositiveShapes

end Block

end BlockPlan
