import BlockPlan.Annealer.Outcome
import BlockPlan.Annealer.Perturb
import BlockPlan.Cooling.Start

/-!
# Calibrating and running

Calibration packs the initial sequences, walks through random moves to find the norms of the terms
and the initial temperature, and goes back to where the walk began.  A run calibrates first if this
has not been done, then searches, and measures all terms of the best layout.
-/

namespace BlockPlan

variable {α ρ : Type}

/-- Everything that a run changes. -/
structure Annealer (α ρ : Type) where
  run : Run α (Plan α) ρ
  /-- The initial temperature, once it is known. -/
  temperature : Option α
  /-- The course of the last search. -/
  trace : Option (Trace α)

namespace Annealer

/-- A plan that nothing has been done with. -/
def start (plan : Plan α) (draws : ρ) : Annealer α ρ := ⟨⟨⟨plan, draws⟩, []⟩, none, none⟩

/-- The plan at hand. -/
def plan (a : Annealer α ρ) : Plan α := a.run.current.state

/-- Edits the plan and the journal. -/
def onRun {β : Type} (edit : Edit α (Run α (Plan α) ρ) β) : Edit α (Annealer α ρ) β :=
  Edit.within Annealer.run (fun r a => { a with run := r }) edit

/-- Edits the plan together with the draws. -/
def onDrawn {β : Type} (edit : Edit α (Drawn (Plan α) ρ) β) : Edit α (Annealer α ρ) β :=
  onRun (Edit.within Run.current (fun c r => { r with current := c }) edit)

/-- Edits the plan. -/
def onPlan {β : Type} (edit : Edit α (Plan α) β) : Edit α (Annealer α ρ) β :=
  onDrawn (Edit.within Drawn.state (fun p t => { t with state := p }) edit)

variable [Scalar α]

/-- Installs the initial sequences: those of the setup, or the shelves. -/
def installInitial (setup : Setup α) : Edit α (Layout α) Unit := do
  match setup.initial with
  | some (positive, negative) => Layout.setSequences positive negative
  | none =>
    let (positive, negative) := Shelf.sequences setup.design.outlineWidth (← get).blocks
    Layout.setSequences (positive.map fun (i : Nat) => (i : Int))
      (negative.map fun (i : Nat) => (i : Int))

/-- Walks through a number of random moves and answers the raw values after each. -/
def walk [DrawSource ρ α] (setup : Setup α) :
    (count : Nat) → Edit α (Drawn (Plan α) ρ) (List (PerTerm α))
  | 0 => pure []
  | count + 1 => do
    Plan.perturb setup true
    let raw := (← get).state.tally.raw
    let rest ← walk setup count
    pure (raw :: rest)

/-- Finds norms and initial temperature, and goes back to the packing of the initial sequences. -/
def calibrate [Transcendental α] [DrawSource ρ α] (setup : Setup α) :
    Edit α (Annealer α ρ) Unit := do
  onPlan (Plan.onLayout (installInitial setup))
  onPlan (Plan.onLayout (modify Layout.pack))
  let opening := (← get).plan.layout.snapshot
  onPlan (Plan.evaluate setup true)
  let samples ← onDrawn (walk setup setup.schedule.trials.toNat)
  onPlan (modify fun p => { p with tally := p.tally.setNorms samples })
  let tally := (← get).plan.tally
  let costs ← Edit.ofExcept (samples.mapM fun s => tally.costOf setup.objective.weights s.toList)
  let t ← Edit.ofExcept
    (startTemperature costs setup.schedule.initialAcceptance setup.schedule.floor)
  modify fun a => { a with temperature := some t }
  onPlan (Plan.onLayout (Layout.load true opening))
  onPlan (Plan.evaluate setup true)
  onPlan Plan.forget
  Term.all.forM fun term =>
    onRun (Annealing.note
      (.normSet term (tally.norm.get term) (setup.objective.weights.get term)))
  let p := (← get).plan
  let cost ← Edit.ofExcept (p.cost setup)
  onRun (Annealing.note
    (.calibrated p.layout.size setup.design.outlineWidth setup.design.outlineHeight t cost))

/-- The outcome of the plan at hand. -/
def outcome (setup : Setup α) (a : Annealer α ρ) : Except (Fault α) (Outcome α) :=
  a.plan.outcome setup a.trace

/-- Calibrates if need be, searches, and measures all terms of the layout that was found. -/
def anneal [Transcendental α] [DrawSource ρ α] (setup : Setup α) :
    Edit α (Annealer α ρ) (Outcome α) := do
  if (← get).temperature.isNone then calibrate setup
  match (← get).temperature with
  | none => pure ()
  | some t =>
    let trace ← onRun (Annealing.run (Plan.space setup) setup.schedule t)
    modify fun a => { a with trace := some trace }
  onPlan (Plan.evaluate setup true)
  Edit.ofExcept ((← get).outcome setup)

end Annealer

end BlockPlan
