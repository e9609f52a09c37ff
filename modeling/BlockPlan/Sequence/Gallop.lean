import BlockPlan.Sequence.Bisection

/-!
# Galloping

`leading` counts the entries at the head of a list that pass a test, when those that pass stand in
front of those that do not.  It tries the places `0, 1, 3, 7, …` and then halves the last stride, so
that a short head is found with few tests and a long one with not many more.  On a list of another
kind the answer is still determined, by the places that are tried.
-/

namespace BlockPlan

/-- Strides on from `last` to `next` and then each time about twice as far, as long as the test
holds and `limit` is not reached; answers the last place at which the test held and the place where
the strides ended. -/
def stride (test : Nat → Bool) (limit last next : Nat) : Nat × Nat :=
  if next < limit ∧ test next then stride test limit next (2 * next + 1) else (last, min next limit)
termination_by limit - next

/-- The number of entries at the head of a list that pass a test. -/
def leading {β : Type} (middle : Middle) (test : β → Bool) (xs : List β) : Nat :=
  let passes (p : Nat) : Bool := match xs[p]? with
    | some x => test x
    | none => false
  if passes 0 then
    let (last, stop) := stride passes xs.length 0 1
    bisect middle passes (last + 1) stop
  else 0

end BlockPlan
