import BlockPlan.Draws.Pcg

/-!
# Scripted draws, and the choice of a source

A `Script` answers from two prepared lists, each started over at its end, and counts what it was
asked.  A `Source` is either a script or a seeded generator.
-/

namespace BlockPlan

/-- Prepared answers, and how many of them were used. -/
structure Script where
  units : List Float
  indices : List Int
  unitsDrawn : Nat
  indicesDrawn : Nat

namespace Script

/-- A fresh script; an empty list stands for a single zero. -/
def make (units : List Float) (indices : List Int) : Script where
  units := if units.isEmpty then [0] else units
  indices := if indices.isEmpty then [0] else indices
  unitsDrawn := 0
  indicesDrawn := 0

/-- The entry of a list that is started over at its end. -/
def cyclic {β : Type} (xs : List β) (i : Nat) (dflt : β) : β := xs.getD (i % xs.length) dflt

/-- The next prepared number. -/
def unit (s : Script) : Float × Script :=
  (cyclic s.units s.unitsDrawn 0, { s with unitsDrawn := s.unitsDrawn + 1 })

/-- The next prepared integer, reduced below the bound. -/
def below (bound : Nat) (s : Script) : Nat × Script :=
  ((cyclic s.indices s.indicesDrawn 0 % (bound : Int)).toNat,
    { s with indicesDrawn := s.indicesDrawn + 1 })

end Script

/-- Where draws come from. -/
inductive Source where
  | seeded (g : Pcg)
  | scripted (s : Script)

namespace Source

/-- The generator of a seed, which may not be negative. -/
def ofSeed (seed : Int) : Except (Fault Float) Source :=
  if seed < 0 then .error .negativeSeed else .ok (.seeded (Pcg.ofSeed seed.toNat))

def unit : Source → Float × Source
  | .seeded g => let (a, g) := g.unit; (a, .seeded g)
  | .scripted s => let (a, s) := s.unit; (a, .scripted s)

def below (bound : Nat) : Source → Nat × Source
  | .seeded g => let (i, g) := g.below bound; (i, .seeded g)
  | .scripted s => let (i, s) := s.below bound; (i, .scripted s)

instance : DrawSource Source Float where
  unit := unit
  below := below

end Source

end BlockPlan
