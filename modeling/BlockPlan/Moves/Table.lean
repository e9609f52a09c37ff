import BlockPlan.Moves.Record
import BlockPlan.Sequence.Bisection

/-!
# Drawing the kind of a move

Five kinds of moves have given shares.  When the shares add up to less than one, rotations have the
rest; when they add up to more, they are scaled down to one.  A `MoveTable` lists the kinds that can
be drawn, each with the upper bound of its stretch of the unit interval.

* `MoveTable.ofShares` — the table of some shares.
* `MoveTable.pick` — the kind in whose stretch a draw falls.
* `MoveTable.probability` — the length of the stretch of a kind.
-/

namespace BlockPlan

variable {α : Type}

/-- The shares of the kinds of moves that have one. -/
structure MoveShares (α : Type) where
  positiveSwap : α
  negativeSwap : α
  doubleSwap : α
  exchange : α
  resize : α
  deriving DecidableEq, Repr

namespace MoveShares

/-- The shares with their kinds, in order. -/
def entries (s : MoveShares α) : List (MoveKind × α) :=
  [(.positiveSwap, s.positiveSwap), (.negativeSwap, s.negativeSwap), (.doubleSwap, s.doubleSwap),
    (.exchange, s.exchange), (.resize, s.resize)]

/-- The name under which the share of a kind is given. -/
def shareName : MoveKind → String
  | .positiveSwap => "pos_swap"
  | .negativeSwap => "neg_swap"
  | .doubleSwap => "double_swap"
  | .exchange => "exchange"
  | .resize => "resize"
  | .shrink => "shrink"
  | .rotate => "rotate"

variable [Scalar α]

/-- One fifth for each kind. -/
def standard : MoveShares α :=
  let fifth := Scalar.ratio 1 5
  ⟨fifth, fifth, fifth, fifth, fifth⟩

/-- The sum of the shares. -/
def total (s : MoveShares α) : α := Scalar.sum (s.entries.map (·.2))

/-- Refuses the first share below zero, and shares that are all zero. -/
def validate (s : MoveShares α) : Except (Fault α) Unit :=
  match s.entries.find? fun e => decide (e.2 < 0) with
  | some (kind, share) => .error (.negativeShare (shareName kind) share)
  | none => if s.total ≤ 0 then .error .noShare else .ok ()

end MoveShares

/-- A remainder up to this is a rounding error and no share for rotations. -/
def shareTolerance [Scalar α] : α := Scalar.ratio 1 1000000000000

/-- The kinds that can be drawn, with the upper bounds of their stretches of the unit interval. -/
structure MoveTable (α : Type) where
  entries : List (MoveKind × α)
  deriving DecidableEq, Repr

namespace MoveTable

/-- The kinds that can be drawn. -/
def kinds (t : MoveTable α) : List MoveKind := t.entries.map (·.1)

/-- The upper bounds of their stretches. -/
def bounds (t : MoveTable α) : List α := t.entries.map (·.2)

variable [Scalar α]

/-- The shares scaled down to one, or filled up to one with rotations. -/
def weighted (s : MoveShares α) : List (MoveKind × α) :=
  if 1 < s.total then s.entries.map fun (kind, p) => (kind, p / s.total)
  else if shareTolerance < 1 - s.total then s.entries ++ [(.rotate, 1 - s.total)]
  else s.entries

/-- Adds up the positive shares; `acc` is the bound reached so far. -/
def accumulate (acc : α) : List (MoveKind × α) → List (MoveKind × α)
  | [] => []
  | (kind, p) :: rest =>
    if p ≤ 0 then accumulate acc rest else (kind, acc + p) :: accumulate (acc + p) rest

/-- Raises the last bound to one. -/
def closeLast : List (MoveKind × α) → Except (Fault α) (List (MoveKind × α))
  | [] => .error .assignmentOutOfRange
  | [(kind, _)] => .ok [(kind, 1)]
  | e :: rest => do pure (e :: (← closeLast rest))

/-- The table of some shares. -/
def ofShares (s : MoveShares α) : Except (Fault α) (MoveTable α) := do
  s.validate
  pure ⟨← closeLast (accumulate 0 (weighted s))⟩

/-- The kind in whose stretch a draw falls; the last kind for a draw beyond all bounds. -/
def pick (t : MoveTable α) (draw : α) : MoveKind :=
  let i := min (upperPlace t.bounds draw) (t.entries.length - 1)
  match t.entries[i]? with
  | some (kind, _) => kind
  | none => .positiveSwap

/-- The length of the stretch of the first entry with a kind, when the stretch in front of the
entries ends at `below`. -/
def stretchOf (kind : MoveKind) (below : α) : List (MoveKind × α) → α
  | [] => 0
  | (k, bound) :: rest => if k = kind then bound - below else stretchOf kind bound rest

/-- How likely a kind is drawn. -/
def probability (t : MoveTable α) (kind : MoveKind) : α := stretchOf kind 0 t.entries

end MoveTable

end BlockPlan
