/-!
# Integers of one word

Positions and owners are kept in words of sixty-four binary digits, one of them for the sign.
-/

namespace BlockPlan

/-- Whether an integer fits into a word. -/
def FitsWord (i : Int) : Prop := -0x8000000000000000 ≤ i ∧ i < 0x8000000000000000

instance (i : Int) : Decidable (FitsWord i) := inferInstanceAs (Decidable (_ ∧ _))

end BlockPlan
