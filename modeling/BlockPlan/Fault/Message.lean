import BlockPlan.Fault
import BlockPlan.Decimal.Text
import BlockPlan.Text.Quoted

/-!
# The wording of faults

One text for every cause.  Numbers appear in their shortest form, names as they are, and a word that
should have been an orientation in its quoted form.
-/

namespace BlockPlan

open Decimal (shortestText)

/-- The name of a kind of region in a message. -/
def RegionKind.label : RegionKind → String
  | .guide => "Guide"
  | .fence => "Fence"

/-- Two sides, as `width x height`. -/
def sidesText (width height : Float) : String :=
  shortestText width ++ " x " ++ shortestText height

/-- The text that describes a cause; for an unknown name it is the name itself. -/
def Fault.message : Fault Float → String
  | .divisionByZero => "float division by zero"
  | .emptyCycle => "integer modulo by zero"
  | .logDomain => "math domain error"
  | .expRange => "math range error"
  | .integerTooLarge => "int too large to convert to float"
  | .ownerTooLarge => "Python int too large to convert to C long"
  | .slotOutOfRange => "list index out of range"
  | .slotTooLarge => "cannot fit 'int' into an index-sized integer"
  | .assignmentOutOfRange => "list assignment index out of range"
  | .unknownName name => name
  | .emptyDrawRange => "high <= 0"
  | .negativeSeed => "expected non-negative integer"
  | .negativeSides w h => "Rect dimensions must be non-negative, got " ++ sidesText w h
  | .hardSides b w h =>
    s!"Hard macro '{b}' must have positive dimensions, got " ++ sidesText w h
  | .noOrientation b => s!"Hard macro '{b}' has no allowed orientation"
  | .orientationNotListed b o =>
    "Orientation " ++ o.word ++ s!" of '{b}' is not among its allowed orientations"
  | .shapeNotAllowed b k => "Orientation " ++ k.label ++ s!" is not allowed for '{b}'"
  | .noCandidate b => s!"Soft macro '{b}' has no candidate shapes"
  | .candidateSides b w h =>
    s!"Soft macro '{b}' has a non-positive candidate shape " ++ sidesText w h
  | .candidateArea b w h area expected =>
    s!"Soft macro '{b}' candidate " ++ sidesText w h ++ " has area " ++ shortestText area
      ++ ", expected " ++ shortestText expected
  | .candidateIndex b i => s!"Shape index {i} out of range for '{b}'"
  | .softArea b => s!"Soft macro '{b}' must have a positive area"
  | .aspectRatio r => "Aspect ratio must be positive, got " ++ shortestText r
  | .orientationWord w => Text.quoted w ++ " is not a valid Orientation"
  | .negativeNetWeight n w => s!"Net '{n}' has negative weight " ++ shortestText w
  | .outlineSides w h => "Outline must have positive dimensions, got " ++ sidesText w h
  | .duplicateBlock b => s!"Duplicate macro name '{b}'"
  | .terminalClash t => s!"Terminal '{t}' clashes with a macro name"
  | .unknownMember n m => s!"Net '{n}' references unknown macro or terminal '{m}'"
  | .regionOfUnknown k b => k.label ++ s!" references unknown macro '{b}'"
  | .emptyRegion k b => k.label ++ s!" of '{b}' has an empty region"
  | .notPermutations n =>
    "Sequence pair must be two permutations of 0.." ++ toString ((n : Int) - 1)
  | .negativeThreshold => "Notch thresholds must be non-negative"
  | .negativeWeight t w => s!"Penalty weight '{t}' must be non-negative, got " ++ shortestText w
  | .negativeShare m p =>
    s!"Action probability '{m}' must be non-negative, got " ++ shortestText p
  | .noShare => "At least one action probability must be positive"
  | .initialAcceptance p => "init_prob must be in (0, 1], got " ++ shortestText p
  | .tooFewLevels n => s!"max_num_step must be >= 1, got {n}"
  | .tooFewTrials n => s!"num_perturb_per_step must be >= 1, got {n}"
  | .fastLevels n => s!"k must be >= 1, got {n}"
  | .descentRate c => "c must be greater than 0.5, got " ++ shortestText c
  | .temperatureFloor t => "min_temperature must be positive, got " ++ shortestText t
  | .reportInterval n => s!"log_interval must be >= 1, got {n}"
  | .noWorkers => "max_workers must be greater than 0"
  | .noResults => "No results to select from"

end BlockPlan
