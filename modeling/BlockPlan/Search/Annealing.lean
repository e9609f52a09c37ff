import BlockPlan.Cooling.Schedule
import BlockPlan.Draws.Basic
import BlockPlan.Search.Journal

/-!
# Simulated annealing

The search is generic in what it improves.  A `SearchSpace` can be changed at random, can take back
its last change, knows its cost, and can be kept and loaded.  `Annealing.run` passes through the
levels of a schedule; on each it makes a number of trials.  A trial that does not raise the cost is
accepted, one that raises it by `d` is accepted with probability `exp (-d / t)` at temperature `t`,
and a trial that is not accepted is taken back.  At the end the best state of the run is loaded.

`SearchSpace.Lawful` says what a search space has to keep for this to be a search: taking back a
change restores the state, and loading brings back the state that was kept.
-/

namespace BlockPlan

variable {α σ ρ κ : Type}

/-- What can be searched: states `σ` with a cost, of which a `κ` can be kept. -/
structure SearchSpace (α σ ρ κ : Type) where
  /-- Changes the state at random. -/
  perturb : Edit α (Drawn σ ρ) Unit
  /-- Takes the last change back. -/
  restore : Edit α σ Unit
  cost : σ → Except (Fault α) α
  /-- What is kept of a state. -/
  keep : σ → κ
  /-- Brings a state back from what was kept of it. -/
  load : κ → Edit α σ Unit

/-- The course of a search. -/
structure Trace (α : Type) where
  initialTemperature : α
  bestCost : α
  finalCost : α
  iterations : Nat
  accepted : Nat
  bestIteration : Nat
  costs : List α
  temperatures : List α
  acceptances : List α
  deriving DecidableEq, Repr

/-- A state with its draws, and the events so far. -/
structure Run (α σ ρ : Type) where
  current : Drawn σ ρ
  events : List (Event α)

namespace Annealing

variable [Scalar α] [Transcendental α] [DrawSource ρ α]

/-- Performs an edit of the state and its draws. -/
def onCurrent {β : Type} (edit : Edit α (Drawn σ ρ) β) : Edit α (Run α σ ρ) β :=
  Edit.within Run.current (fun c r => { r with current := c }) edit

/-- Adds an event to the journal. -/
def note (e : Event α) : Edit α (Run α σ ρ) Unit :=
  modify fun r => { r with events := r.events ++ [e] }

/-- Whether a change of the cost by `delta` is accepted.  Only a change uphill needs a draw, which
is taken before the probability is worked out. -/
def accept (delta temperature : α) : Edit α (Drawn σ ρ) Bool := do
  if delta ≤ 0 then pure true
  else
    let draw ← Edit.drawUnit
    let exponent ← Edit.ofExcept (divide (-delta) temperature)
    let probability ← Edit.ofExcept (exponential exponent)
    pure (decide (draw < probability))

/-- Where a search stands: the running cost, the best cost with what was kept of its state, and how
many trials have been made. -/
structure Standing (α κ : Type) where
  cost : α
  bestCost : α
  best : κ
  bestIteration : Nat
  iterations : Nat
  deriving DecidableEq, Repr

/-- One trial.  Answers where the search stands, and whether the trial was accepted. -/
def trial (space : SearchSpace α σ ρ κ) (temperature : α) (s : Standing α κ) :
    Edit α (Drawn σ ρ) (Standing α κ × Bool) := do
  let s := { s with iterations := s.iterations + 1 }
  space.perturb
  let cost ← Edit.ofExcept (space.cost (← get).state)
  if ← accept (cost - s.cost) temperature then
    let s := { s with cost := cost }
    if s.cost < s.bestCost then
      let best := space.keep (← get).state
      pure ({ s with bestCost := cost, best := best, bestIteration := s.iterations }, true)
    else pure (s, true)
  else
    Edit.onState space.restore
    pure (s, false)

/-- A number of trials at one temperature.  Answers where the search stands, and how many trials
were accepted. -/
def trials (space : SearchSpace α σ ρ κ) (temperature : α) :
    (count : Nat) → (accepted : Nat) → Standing α κ → Edit α (Drawn σ ρ) (Standing α κ × Nat)
  | 0, accepted, s => pure (s, accepted)
  | count + 1, accepted, s => do
    let (s, taken) ← trial space temperature s
    trials space temperature count (if taken then accepted + 1 else accepted) s

/-- What is recorded of a level. -/
structure LevelRecord (α : Type) where
  cost : α
  temperature : α
  acceptance : α
  accepted : Nat
  deriving DecidableEq, Repr

/-- All trials of one level, with the event that reports it. -/
def level (space : SearchSpace α σ ρ κ) (schedule : Schedule α) (initial : α) (index : Nat)
    (s : Standing α κ) : Edit α (Run α σ ρ) (Standing α κ × LevelRecord α) := do
  let temperature ← Edit.ofExcept (schedule.temperatureAt index initial)
  let (s, accepted) ← onCurrent (trials space temperature schedule.trials.toNat 0 s)
  let acceptance : α := (accepted : α) / (schedule.trials.toNat : α)
  note (.level index temperature s.cost s.bestCost acceptance (schedule.reports (index + 1)))
  pure (s, ⟨s.cost, temperature, acceptance, accepted⟩)

/-- A number of levels, from a given one on, with their records in front of those that follow. -/
def levels (space : SearchSpace α σ ρ κ) (schedule : Schedule α) (initial : α) :
    (count : Nat) → (index : Nat) → Standing α κ →
      Edit α (Run α σ ρ) (Standing α κ × List (LevelRecord α))
  | 0, _, s => pure (s, [])
  | count + 1, index, s => do
    let (s, record) ← level space schedule initial index s
    let (s, records) ← levels space schedule initial count (index + 1) s
    pure (s, record :: records)

/-- A whole search: all levels of the schedule, after which the best state is loaded. -/
def run (space : SearchSpace α σ ρ κ) (schedule : Schedule α) (initial : α) :
    Edit α (Run α σ ρ) (Trace α) := do
  let start := (← get).current.state
  let cost ← Edit.ofExcept (space.cost start)
  note (.started schedule.levels schedule.trials initial cost)
  let (s, records) ← levels space schedule initial schedule.levels.toNat 0
    ⟨cost, cost, space.keep start, 0, 0⟩
  onCurrent (Edit.onState (space.load s.best))
  let final ← Edit.ofExcept (space.cost (← get).current.state)
  let accepted := (records.map (·.accepted)).foldl (· + ·) 0
  note (.finished s.bestCost s.iterations accepted)
  pure
    { initialTemperature := initial
      bestCost := s.bestCost
      finalCost := final
      iterations := s.iterations
      accepted := accepted
      bestIteration := s.bestIteration
      costs := records.map (·.cost)
      temperatures := records.map (·.temperature)
      acceptances := records.map (·.acceptance) }

end Annealing

/-- The laws of a search space, up to a notion `same` of equal states: taking back a change restores
the state, and loading brings back what was kept. -/
structure SearchSpace.Lawful (space : SearchSpace α σ ρ κ) (same : σ → σ → Prop) : Prop where
  cost_congr : ∀ s t, same s t → space.cost s = space.cost t
  restore_perturb : ∀ s r t, space.perturb.run ⟨s, r⟩ = .ok () t →
    ∃ u, space.restore.run t.state = .ok () u ∧ same u s
  load_keep : ∀ s t, ∃ u, (space.load (space.keep s)).run t = .ok () u ∧ same u s

end BlockPlan
