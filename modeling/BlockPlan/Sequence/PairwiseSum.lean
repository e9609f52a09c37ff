import BlockPlan.Scalar.Basic

/-!
# Pairwise summation

Long lists of rounded numbers are added in a tree rather than from left to right, which keeps the
rounding error small: short lists one by one, lists of up to 128 entries in eight interleaved
columns, and longer ones by halves.  In exact arithmetic the order makes no difference.
-/

namespace BlockPlan

variable {α : Type} [Scalar α]

/-- Adds eight columns of numbers, row by row, as long as full rows remain; `fuel` bounds the number
of rows. -/
def addRows : (fuel : Nat) → (acc : List α) → (xs : List α) → List α × List α
  | 0, acc, xs => (acc, xs)
  | fuel + 1, acc, xs =>
    if xs.length < 8 then (acc, xs)
    else addRows fuel (List.zipWith (· + ·) acc (xs.take 8)) (xs.drop 8)

/-- The sum of eight columns, added as a balanced tree. -/
def foldColumns : List α → α
  | [a, b, c, d, e, f, g, h] => ((a + b) + (c + d)) + ((e + f) + (g + h))
  | xs => Scalar.sum xs

/-- The sum of a list of at most 128 entries. -/
def columnSum (xs : List α) : α :=
  if xs.length < 8 then Scalar.sum xs
  else
    let (columns, rest) := addRows xs.length (xs.take 8) (xs.drop 8)
    rest.foldl (· + ·) (foldColumns columns)

/-- The sum of a list by halves, the first of them a multiple of eight long; `fuel` bounds the
number of halvings. -/
def halvedSum : (fuel : Nat) → (xs : List α) → α
  | 0, xs => columnSum xs
  | fuel + 1, xs =>
    if xs.length ≤ 128 then columnSum xs
    else
      let half := xs.length / 2 / 8 * 8
      halvedSum fuel (xs.take half) + halvedSum fuel (xs.drop half)

/-- The pairwise sum of a list. -/
def pairwiseSum (xs : List α) : α := halvedSum xs.length xs

end BlockPlan
