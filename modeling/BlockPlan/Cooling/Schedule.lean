import BlockPlan.Fault

/-!
# The cooling schedule

A run passes through levels of falling temperature, with a number of trials on each.  The first
level has the initial temperature; on the fast levels that follow the temperature falls with the
reciprocal of the level, and from then on with the reciprocal of its square.  It never exceeds the
initial temperature and never falls below a floor.
-/

namespace BlockPlan

variable {α : Type}

/-- The settings of a run. -/
structure Schedule (α : Type) where
  /-- How likely an average uphill move is accepted at the initial temperature. -/
  initialAcceptance : α
  /-- The number of levels. -/
  levels : Int
  /-- The number of trials on a level. -/
  trials : Int
  /-- The last of the fast levels. -/
  fastLevels : Int
  /-- The rate of descent on the fast levels. -/
  descentRate : α
  /-- The seed of the draws. -/
  seed : Int
  /-- The temperature below which no level falls. -/
  floor : α
  /-- The number of levels from one report to the next. -/
  reportInterval : Int
  deriving DecidableEq, Repr

variable [Scalar α]

/-- The temperature of a level, counted from zero. -/
def temperature (level : Int) (initial : α) (fastLevels : Int) (rate floor : α) :
    Except (Fault α) α := do
  let t ←
    if level ≤ 0 then pure initial
    else if level < fastLevels then
      let t ← divide initial (rate * (← ofInteger (level + 1)))
      pure (Scalar.smaller t initial)
    else
      let square := (level + 1) * (level + 1)
      let t ← divide (initial * (← ofInteger fastLevels)) (rate * (← ofInteger square))
      pure (Scalar.smaller t initial)
  pure (Scalar.larger t floor)

namespace Schedule

/-- The settings that hold unless others are given. -/
def standard : Schedule α where
  initialAcceptance := Scalar.ratio 95 100
  levels := 1000
  trials := 50
  fastLevels := 7
  descentRate := ((100 : Nat) : α)
  seed := 0
  floor := Scalar.ratio 1 10000000000
  reportInterval := 100

/-- Names the first setting that makes no sense. -/
def validate (s : Schedule α) : Except (Fault α) Unit :=
  if ¬ (0 < s.initialAcceptance ∧ s.initialAcceptance ≤ 1) then
    .error (.initialAcceptance s.initialAcceptance)
  else if s.levels < 1 then .error (.tooFewLevels s.levels)
  else if s.trials < 1 then .error (.tooFewTrials s.trials)
  else if s.fastLevels < 1 then .error (.fastLevels s.fastLevels)
  else if s.descentRate ≤ Scalar.ratio 1 2 then .error (.descentRate s.descentRate)
  else if s.floor ≤ 0 then .error (.temperatureFloor s.floor)
  else if s.reportInterval < 1 then .error (.reportInterval s.reportInterval)
  else .ok ()

/-- The temperature of a level of this schedule. -/
def temperatureAt (s : Schedule α) (level : Int) (initial : α) : Except (Fault α) α :=
  temperature level initial s.fastLevels s.descentRate s.floor

/-- Whether the level that makes `done` levels in all is reported: every so many levels, and the
last one. -/
def reports (s : Schedule α) (done : Int) : Bool :=
  done % s.reportInterval == 0 || done == s.levels

end Schedule

end BlockPlan
