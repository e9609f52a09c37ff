import BlockPlan.Scalar.Basic
import BlockPlan.Block.Orientation

/-!
# What can go wrong

Every operation of the library that can fail does so with a `Fault`: a cause, together with what
is needed to describe it.  `Fault.kind` sorts the causes into five kinds.  The wording is a matter
of its own and lives in `BlockPlan.Fault.Message`.

`Edit` is the type of operations that change a value and may fail on the way.  Such an operation
is not undone by its failure: what it had changed before stays changed.
-/

namespace BlockPlan

/-- The two kinds of regions that a block can be tied to. -/
inductive RegionKind where
  | guide | fence
  deriving DecidableEq, Repr

/-- The causes of failure. -/
inductive Fault (α : Type) where
  -- arithmetic
  | divisionByZero
  | emptyCycle
  | logDomain
  | expRange
  | integerTooLarge
  | ownerTooLarge
  -- access to sequences and names
  | slotOutOfRange
  | slotTooLarge
  | assignmentOutOfRange
  | unknownName (name : String)
  -- random draws
  | emptyDrawRange
  | negativeSeed
  -- rectangles, blocks and nets
  | negativeSides (width height : α)
  | hardSides (block : String) (width height : α)
  | noOrientation (block : String)
  | orientationNotListed (block : String) (orientation : Orientation)
  | shapeNotAllowed (block : String) (key : ShapeKey)
  | noCandidate (block : String)
  | candidateSides (block : String) (width height : α)
  | candidateArea (block : String) (width height area expected : α)
  | candidateIndex (block : String) (index : Int)
  | softArea (block : String)
  | aspectRatio (ratio : α)
  | orientationWord (word : String)
  | negativeNetWeight (net : String) (weight : α)
  -- designs
  | outlineSides (width height : α)
  | duplicateBlock (block : String)
  | terminalClash (terminal : String)
  | unknownMember (net member : String)
  | regionOfUnknown (kind : RegionKind) (block : String)
  | emptyRegion (kind : RegionKind) (block : String)
  -- sequence pairs
  | notPermutations (count : Nat)
  -- settings of a run
  | negativeThreshold
  | negativeWeight (term : String) (weight : α)
  | negativeShare (move : String) (share : α)
  | noShare
  | initialAcceptance (probability : α)
  | tooFewLevels (count : Int)
  | tooFewTrials (count : Int)
  | fastLevels (count : Int)
  | descentRate (rate : α)
  | temperatureFloor (temperature : α)
  | reportInterval (count : Int)
  -- several runs
  | noWorkers
  | noResults
  deriving DecidableEq, Repr

/-- The five kinds of failure. -/
inductive Fault.Kind where
  /-- A value that makes no sense where it stands. -/
  | value
  /-- A name that nothing bears. -/
  | key
  /-- A position beyond the ends of a sequence. -/
  | index
  | division
  | overflow
  deriving DecidableEq, Repr

/-- The kind of a cause; whatever is not an access or an arithmetic limit is a bad value. -/
def Fault.kind {α : Type} : Fault α → Fault.Kind
  | .divisionByZero | .emptyCycle => .division
  | .expRange | .integerTooLarge | .ownerTooLarge => .overflow
  | .slotOutOfRange | .slotTooLarge | .assignmentOutOfRange => .index
  | .unknownName _ => .key
  | _ => .value

/-- An operation on a `σ` that answers a `β` or fails, and keeps what it changed either way. -/
abbrev Edit (α σ β : Type) := EStateM (Fault α) σ β

namespace Edit

variable {α σ τ β : Type}

/-- A computation that changes nothing. -/
def ofExcept : Except (Fault α) β → Edit α σ β
  | .ok b => pure b
  | .error e => throw e

/-- Performs an edit on a part of a larger value; the part is put back even after a failure. -/
def within (part : τ → σ) (put : σ → τ → τ) (edit : Edit α σ β) : Edit α τ β := fun t =>
  match edit.run (part t) with
  | .ok b s => .ok b (put s t)
  | .error e s => .error e (put s t)

/-- The answer of an edit, and the value that it leaves. -/
def outcome (edit : Edit α σ β) (s : σ) : Except (Fault α) β × σ :=
  match edit.run s with
  | .ok b s => (.ok b, s)
  | .error e s => (.error e, s)

end Edit

/-- The quotient of two numbers; a divisor that equals zero is a fault. -/
def divide {α : Type} [Scalar α] (a b : α) : Except (Fault α) α :=
  if b == 0 then .error .divisionByZero else .ok (a / b)

/-- The exponential; a finite number whose exponential is infinite is out of range. -/
def exponential {α : Type} [Scalar α] [Transcendental α] (a : α) : Except (Fault α) α :=
  let r := Transcendental.exp a
  if Scalar.isInfinite r && !Scalar.isInfinite a then .error .expRange else .ok r

/-- The natural logarithm, which numbers up to zero do not have. -/
def logarithm {α : Type} [Scalar α] [Transcendental α] (a : α) : Except (Fault α) α :=
  if a ≤ 0 then .error .logDomain else .ok (Transcendental.log a)

/-- The number that an integer is, unless it lies beyond every number. -/
def ofInteger {α : Type} [Scalar α] (i : Int) : Except (Fault α) α :=
  match Scalar.ofInt? i with
  | some a => .ok a
  | none => .error .integerTooLarge

end BlockPlan
