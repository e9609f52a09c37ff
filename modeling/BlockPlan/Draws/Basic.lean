import BlockPlan.Fault

/-!
# Random draws

A source of draws answers two questions, a number between zero and one and a number below a bound,
each together with the source that is left.  Whatever is computed with draws is computed for an
arbitrary source: a generator started from a seed, a script of prepared answers, or any stream at
all.

`LawfulDraws` says what every source promises: a unit draw lies in `[0, 1)` and a draw below `n` is
below `n`.
-/

namespace BlockPlan

/-- A source `ρ` of random draws. -/
class DrawSource (ρ : Type) (α : outParam Type) where
  /-- A number from zero up to, but without, one. -/
  unit : ρ → α × ρ
  /-- A number below a positive bound. -/
  below : (bound : Nat) → ρ → Nat × ρ

/-- A source whose draws lie in their ranges. -/
class LawfulDraws (ρ : Type) (α : outParam Type) [Scalar α] [DrawSource ρ α] : Prop where
  unit_nonneg : ∀ r : ρ, 0 ≤ (DrawSource.unit r).1
  unit_lt_one : ∀ r : ρ, (DrawSource.unit r).1 < 1
  below_lt : ∀ (n : Nat) (r : ρ), 0 < n → (DrawSource.below n r).1 < n

/-- A value beside the source that it is changed with. -/
structure Drawn (σ ρ : Type) where
  state : σ
  draws : ρ

namespace Edit

variable {α σ ρ β : Type} [DrawSource ρ α]

/-- An edit of the value beside a source, which draws nothing. -/
def onState (edit : Edit α σ β) : Edit α (Drawn σ ρ) β :=
  within Drawn.state (fun s t => { t with state := s }) edit

/-- Draws a number between zero and one. -/
def drawUnit : Edit α (Drawn σ ρ) α := fun t =>
  let (a, draws) := DrawSource.unit t.draws
  .ok a { t with draws := draws }

/-- Draws a number below a bound; below zero there is none, and nothing is drawn. -/
def drawBelow (bound : Nat) : Edit α (Drawn σ ρ) Nat := fun t =>
  if bound = 0 then .error .emptyDrawRange t
  else
    let (i, draws) := DrawSource.below bound t.draws
    .ok i { t with draws := draws }

end Edit

end BlockPlan
