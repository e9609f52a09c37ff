import BlockPlan.Annealer.Plan

/-!
# The outcome of a run

Where every block ended, the costs, the terms and the course of the search.
-/

namespace BlockPlan

variable {α : Type}

/-- Where a block ended, and in which shape. -/
structure PlacedBlock (α : Type) where
  name : String
  x : α
  y : α
  width : α
  height : α
  /-- The shape of a block that has one; a block is either turned or has a candidate in force. -/
  shape : Option ShapeKey := none
  deriving DecidableEq, Repr

/-- The outcome of a run. -/
structure Outcome (α : Type) where
  seed : Option Int
  bestCost : α
  finalCost : α
  initialTemperature : α
  iterations : Int
  bestIteration : Nat
  /-- The terms by name, each over its norm. -/
  penalties : List (String × α)
  /-- The terms by name, as they were measured. -/
  rawPenalties : List (String × α)
  placements : List (PlacedBlock α)
  costs : List α
  temperatures : List α
  acceptances : List α
  deriving DecidableEq, Repr

/-- Where a block is. -/
def Block.placed (b : Block α) : PlacedBlock α :=
  ⟨b.name, b.x, b.y, b.width, b.height, some b.shapeKey⟩

variable [Scalar α]

def PlacedBlock.area (p : PlacedBlock α) : α := p.width * p.height

namespace Outcome

/-- The outline term over its norm; zero if it was not measured. -/
def outlinePenalty (o : Outcome α) : α := (lookUp Term.outline.name o.penalties).getD 0

/-- Whether no block sticks out of the outline. -/
def fitsOutline (o : Outcome α) : Bool :=
  decide ((lookUp Term.outline.name o.rawPenalties).getD 0 ≤ 0)

omit [Scalar α] in
/-- The first placement of a name. -/
def placement (o : Outcome α) (name : String) : Except (Fault α) (PlacedBlock α) :=
  match o.placements.find? (·.name == name) with
  | some p => .ok p
  | none => .error (.unknownName name)

end Outcome

/-- The outcome of a plan as it stands, with the course of the last search if there was one. -/
def Plan.outcome (setup : Setup α) (trace : Option (Trace α)) (p : Plan α) :
    Except (Fault α) (Outcome α) := do
  let cost ← p.cost setup
  let normalized ← Term.all.mapM fun t => do pure (t.name, ← p.tally.normalized t)
  let raw := Term.all.map fun t => (t.name, p.tally.raw.get t)
  pure
    { seed := some setup.schedule.seed
      bestCost := (trace.map (·.bestCost)).getD cost
      finalCost := cost
      initialTemperature := (trace.map (·.initialTemperature)).getD 0
      iterations := (trace.map fun t => (t.iterations : Int)).getD 0
      bestIteration := (trace.map (·.bestIteration)).getD 0
      penalties := normalized
      rawPenalties := raw
      placements := p.layout.blocks.map Block.placed
      costs := (trace.map (·.costs)).getD []
      temperatures := (trace.map (·.temperatures)).getD []
      acceptances := (trace.map (·.acceptances)).getD [] }

end BlockPlan
