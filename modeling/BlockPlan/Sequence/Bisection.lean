import BlockPlan.Scalar.Basic

/-!
# Bisection

`bisect middle test lo hi` looks for the first place at which `test` fails, halving the range from
`lo` to `hi`.  When the test holds up to some place and fails from there on, that place is found;
for any other test the answer is determined by the halving alone.  `lowerPlace` and `upperPlace` are
the two ends of the stretch of a sorted list that holds a given number.
-/

namespace BlockPlan

/-- Which of the two middle places of a range of even length is tried. -/
inductive Middle where
  | lower | upper
  deriving DecidableEq, Repr

/-- The middle place of the range from `lo` up to, but without, `hi`. -/
def Middle.place (middle : Middle) (lo hi : Nat) : Nat :=
  match middle with
  | .lower => (lo + hi - 1) / 2
  | .upper => (lo + hi) / 2

/-- The middle place of a range that is not empty lies inside it. -/
theorem Middle.place_mem {lo hi : Nat} (middle : Middle) (h : lo < hi) :
    lo ≤ middle.place lo hi ∧ middle.place lo hi < hi := by
  cases middle <;> simp only [Middle.place] <;> omega

/-- The first place from `lo` up to `hi` at which the test fails, found by halving. -/
def bisect (middle : Middle) (test : Nat → Bool) (lo hi : Nat) : Nat :=
  if h : lo < hi then
    have := middle.place_mem h
    let mid := middle.place lo hi
    if test mid then bisect middle test (mid + 1) hi else bisect middle test lo mid
  else lo
termination_by hi - lo

variable {α : Type} [Scalar α]

/-- The first place of a sorted list whose entry is not below `x`. -/
def lowerPlace (xs : List α) (x : α) : Nat :=
  bisect .upper (fun p => match xs[p]? with | some y => y < x | none => false) 0 xs.length

/-- The first place of a sorted list whose entry lies above `x`. -/
def upperPlace (xs : List α) (x : α) : Nat :=
  bisect .upper (fun p => match xs[p]? with | some y => !(x < y) | none => false) 0 xs.length

end BlockPlan
