import BlockPlan.Annealer.Outcome
import BlockPlan.Drawing.Call

/-!
# The scene of a design

The outline with its blockages, guides and fences, the blocks where a run has left them or where
they stand in the design, and the nets as stars of lines.
-/

namespace BlockPlan.Drawing

open Scalar (larger smaller largest)

/-- The blocks to be drawn: those of an outcome, or else those of the design. -/
def placements (d : Design Float) (outcome : Option (Outcome Float)) : List (PlacedBlock Float) :=
  match outcome with
  | some o => o.placements
  | none => d.blocks.map fun b => { b.placed with shape := none }

/-- The size of a label, which grows with the width of its block from five to nine points. -/
def labelSize (outlineWidth width : Float) : Float :=
  let share := width / larger outlineWidth (Scalar.ratio 1 1000000000)
  larger (Float.ofNat 5) (smaller (Float.ofNat 9) (share * Float.ofNat 60))

/-- Draws a block, and its name if labels are shown. -/
def drawBlock (ax : String) (d : Design Float) (labels : Bool) (p : PlacedBlock Float) :
    Draw Unit := do
  let isHard := d.blocks.any fun b => b.isHard && b.name == p.name
  call ax "add_patch"
    [rectangle p.x p.y p.width p.height
      { face := some (if isHard then hardColor else softColor), edge := white,
        lineWidth := Scalar.ratio 12 10, opacity := Scalar.ratio 8 10 }] []
  if labels && decide (0 < p.area) then
    call ax "text"
      [.real (p.x + Scalar.half p.width), .real (p.y + Scalar.half p.height), .text p.name]
      [("ha", .text "center"), ("va", .text "center"),
        ("fontsize", .real (labelSize d.outlineWidth p.width)), ("color", .text "white"),
        ("fontweight", .text "bold"), ("alpha", fraction 9 10)]

/-- Draws regions with a coloured border. -/
def drawRegions (ax : String) (color : Color) (lineStyle : String)
    (regions : List (String × Rect Float)) : Draw Unit :=
  regions.forM fun (_, r) =>
    call ax "add_patch"
      [rectangle r.x r.y r.width r.height
        { edge := color, lineWidth := Scalar.ratio 12 10, lineStyle := lineStyle }] []

/-- Draws a design with placed blocks on some axes, and fits the axes to it. -/
def drawScene (ax : String) (d : Design Float) (outcome : Option (Outcome Float)) (labels : Bool) :
    Draw Unit := do
  call ax "add_patch"
    [rectangle 0 0 d.outlineWidth d.outlineHeight
      { edge := accent, lineWidth := Float.ofNat 2, lineStyle := "--",
        opacity := Scalar.ratio 7 10 }] []
  d.blockages.forM fun r =>
    call ax "add_patch"
      [rectangle r.x r.y r.width r.height
        { face := some blockageColor, edge := blockageColor, lineWidth := 1, hatch := some "//",
          opacity := Scalar.ratio 3 10 }] []
  drawRegions ax guideColor ":" d.guides
  drawRegions ax fenceColor "-." d.fences
  let blocks := placements d outcome
  blocks.forM (drawBlock ax d labels)
  let xMax := largest d.outlineWidth (blocks.map fun p => p.x + p.width)
  let yMax := largest d.outlineHeight (blocks.map fun p => p.y + p.height)
  let margin := larger xMax yMax * Scalar.ratio 5 100
  call ax "set_xlim" [.real (-margin), .real (xMax + margin)] []
  call ax "set_ylim" [.real (-margin), .real (yMax + margin)] []
  call ax "set_aspect" [.text "equal"] []
  call ax "grid" [.flag true] [("alpha", fraction 1 10), paint gridColor]

/-- The lines from the first known end of a net to all others. -/
def star (points : Points Float) (n : Net Float) : List ((Float × Float) × (Float × Float)) :=
  match n.members.filterMap (lookUp · points) with
  | [] => []
  | p :: rest => rest.map fun q => (p, q)

/-- Draws the nets and the terminals. -/
def drawNets (ax : String) (d : Design Float) (outcome : Option (Outcome Float)) : Draw Unit := do
  let centers := (placements d outcome).map fun p =>
    (p.name, (p.x + Scalar.half p.width, p.y + Scalar.half p.height))
  let points := enterAll centers d.terminals
  let lines := d.nets.flatMap (star points)
  if !lines.isEmpty then call ax "add_collection" [segments lines] []
  if !d.terminals.isEmpty then
    call ax "scatter" [reals (d.terminals.map (·.2.1)), reals (d.terminals.map (·.2.2))]
      [("s", .count 18), ("marker", .text "s"), paint terminalColor, ("zorder", .count 3)]

end BlockPlan.Drawing
