import BlockPlan.Fault
import BlockPlan.Sequence.Slot

/-!
# Sequence pairs

A sequence pair orders the blocks `0, …, n - 1` twice and so fixes how any two of them lie to each
other: `a` is left of `b` when it precedes `b` in both sequences, and below `b` when it follows `b`
in the positive sequence and precedes it in the negative one.

Beside either sequence stands its inverse, the slot of every block.  An exchange of two entries
keeps both in step; slots may count from the end, and the inverse records them as they were given.
What is done with either sequence alike takes the `Sign` of the sequence.
-/

namespace BlockPlan

/-- Two orders of the blocks, each with its inverse. -/
structure SequencePair where
  positive : List Nat
  negative : List Nat
  positiveSlot : List Int
  negativeSlot : List Int
  deriving DecidableEq, Repr

/-- Which of the two sequences. -/
inductive Sign where
  | positive | negative
  deriving DecidableEq, Repr

/-- The slot of every one of `n` blocks in a sequence. -/
def slotsOf (n : Nat) (sequence : List Nat) : List Int :=
  sequence.zipIdx.foldl (fun slots (block, slot) => slots.set block (slot : Int))
    (List.replicate n 0)

/-- Exchanges the entries of two slots and records the slots in the inverse.  The second slot is
looked up first. -/
def exchangeSlots {α : Type} (sequence : List Nat) (inverse : List Int) (a b : Int) :
    Except (Fault α) (List Nat × List Int) := do
  let j ← Slot.place sequence.length b
  let i ← Slot.place sequence.length a
  let exchanged := (sequence.set i (sequence.getD j 0)).set j (sequence.getD i 0)
  pure (exchanged, (inverse.set (exchanged.getD i 0) a).set (exchanged.getD j 0) b)

namespace SequencePair

/-- The number of blocks. -/
def size (p : SequencePair) : Nat := p.positiveSlot.length

/-- The pair of two sequences of `n` blocks. -/
def ofSequences (n : Nat) (positive negative : List Nat) : SequencePair where
  positive := positive
  negative := negative
  positiveSlot := slotsOf n positive
  negativeSlot := slotsOf n negative

/-- Both sequences in the order of the numbers. -/
def ordered (n : Nat) : SequencePair := ofSequences n (List.range n) (List.range n)

/-- Whether a list holds each of `0, …, n - 1` exactly once. -/
def isPermutation (n : Nat) (xs : List Int) : Bool :=
  xs.length == n && (List.range n).all fun i => xs.count (i : Int) == 1

/-- The pair of two given sequences, which both have to be permutations. -/
def ofPermutations {α : Type} (n : Nat) (positive negative : List Int) :
    Except (Fault α) SequencePair :=
  if isPermutation n positive && isPermutation n negative then
    .ok (ofSequences n (positive.map Int.toNat) (negative.map Int.toNat))
  else .error (.notPermutations n)

/-! ## Exchanges -/

/-- One of the two sequences. -/
def sequence (p : SequencePair) : Sign → List Nat
  | .positive => p.positive
  | .negative => p.negative

/-- The inverse of one of the two sequences. -/
def slots (p : SequencePair) : Sign → List Int
  | .positive => p.positiveSlot
  | .negative => p.negativeSlot

/-- The pair with another sequence, and its inverse, in the place of one of the two. -/
def replace (p : SequencePair) (sign : Sign) (sequence : List Nat) (inverse : List Int) :
    SequencePair :=
  match sign with
  | .positive => { p with positive := sequence, positiveSlot := inverse }
  | .negative => { p with negative := sequence, negativeSlot := inverse }

/-- Exchanges the entries of two slots of a sequence. -/
def swap {α : Type} (sign : Sign) (a b : Int) (p : SequencePair) :
    Except (Fault α) SequencePair :=
  (exchangeSlots (p.sequence sign) (p.slots sign) a b).map fun (sequence, inverse) =>
    p.replace sign sequence inverse

/-- Exchanges the entries of two slots of the positive sequence. -/
def swapPositive {α : Type} : Int → Int → SequencePair → Except (Fault α) SequencePair :=
  swap .positive

/-- Exchanges the entries of two slots of the negative sequence. -/
def swapNegative {α : Type} : Int → Int → SequencePair → Except (Fault α) SequencePair :=
  swap .negative

/-! ## Slots of blocks -/

/-- The least of some entries of a list of slots; `dflt` when there are none. -/
def leastSlot {α : Type} (slots : List Int) (dflt : Int) (blocks : List Int) :
    Except (Fault α) Int := do
  let found ← blocks.mapM (Slot.entry slots)
  pure <| match found with
    | [] => dflt
    | s :: rest => rest.foldl min s

/-- The first slots of the two sequences that hold one of the given blocks.  Changing these blocks
alone leaves everything in front of the slots as it is. -/
def firstSlots {α : Type} (p : SequencePair) (blocks : List Int) :
    Except (Fault α) (Int × Int) := do
  let a ← leastSlot p.positiveSlot p.size blocks
  let b ← leastSlot p.negativeSlot p.size blocks
  pure (a, b)

/-- The slot of a block in a sequence. -/
def slotIn (p : SequencePair) (sign : Sign) (block : Nat) : Int := (p.slots sign).getD block 0

/-! ## Relative positions -/

/-- Whether `x` stands before `y` in a sequence. -/
def Precedes (sequence : List Nat) (x y : Nat) : Prop := [x, y].Sublist sequence

/-- Whether block `a` is left of block `b`. -/
def LeftOf (p : SequencePair) (a b : Nat) : Prop :=
  Precedes p.positive a b ∧ Precedes p.negative a b

/-- Whether block `a` is below block `b`. -/
def Below (p : SequencePair) (a b : Nat) : Prop :=
  Precedes p.positive b a ∧ Precedes p.negative a b

/-- Both sequences are permutations of the blocks, and the slots are their inverses. -/
structure Coherent (n : Nat) (p : SequencePair) : Prop where
  positive_perm : p.positive.Perm (List.range n)
  negative_perm : p.negative.Perm (List.range n)
  positiveSlot_eq : p.positiveSlot = slotsOf n p.positive
  negativeSlot_eq : p.negativeSlot = slotsOf n p.negative

end SequencePair

end BlockPlan
