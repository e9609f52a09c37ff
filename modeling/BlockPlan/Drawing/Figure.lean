import BlockPlan.Drawing.Scene

/-!
# Figures

Three figures about a design and a run on it: the placed blocks, the course of the search, and a
board with both beside the terms of the cost.  Each ends by being saved; what is said about that is
the text that the figure answers.
-/

namespace BlockPlan.Drawing

open Decimal (fixedText)

/-- Where and how large a figure is drawn. -/
structure Page where
  path : String
  size : Arg
  resolution : Arg

/-- The settings of the dark style. -/
def darkSettings : List (String × Arg) :=
  [ ("figure.facecolor", .text background.text), ("axes.facecolor", .text background.text),
    ("axes.edgecolor", .text gridColor.text), ("text.color", .text textColor.text),
    ("xtick.color", .text textColor.text), ("ytick.color", .text textColor.text),
    ("axes.labelcolor", .text textColor.text), ("font.family", .text "sans-serif"),
    ("font.size", .count 10) ]

/-- Sets up a style; only the dark one has settings of its own. -/
def setUp (style : String) : Draw Unit := do
  if style == "dark" then call "rcParams" "update" [.record darkSettings] []

/-- The font size of a text. -/
def fontSize (points : Nat) : String × Arg := ("fontsize", wholeReal points)

/-- A bold title of some points in the accent colour. -/
def bold (points : Nat) : List (String × Arg) :=
  [fontSize points, ("fontweight", .text "bold"), paint accent]

/-- Makes a figure with a single pair of axes. -/
def singleAxes (page : Page) : Draw String := do
  call "plt" "subplots" [.count 1, .count 1] [("figsize", page.size), ("dpi", page.resolution)]
  newAxes

/-- Saves the figure and answers the message about it. -/
def save (page : Page) (what : String) : Draw String := do
  call "plt" "savefig" [.text page.path]
    [("bbox_inches", .text "tight"), ("facecolor", .text "face")]
  call "plt" "close" [] []
  return "  Saved " ++ what ++ " → " ++ page.path ++ "\n"

/-- The seed of a run, as text. -/
def seedText : Option Int → String
  | some seed => toString seed
  | none => "None"

/-- The entries of the legend of a scene. -/
def legendEntries : List Arg :=
  [ legendEntry "Hard Macro" (hardColor.textWith 1) transparent,
    legendEntry "Soft Macro" (softColor.textWith 1) transparent,
    legendEntry "Blockage" (blockageColor.textWith (Scalar.ratio 4 10)) transparent,
    legendEntry "Guide" transparent (guideColor.textWith 1),
    legendEntry "Fence" transparent (fenceColor.textWith 1) ]

/-- The colours of a legend in the dark style. -/
def legendColors : List (String × Arg) :=
  [("facecolor", .text background.text), ("edgecolor", .text gridColor.text)]

/-- The placed blocks of a design. -/
def drawPlacement (page : Page) (d : Design Float) (outcome : Option (Outcome Float))
    (labels nets : Bool) : Draw String := do
  let ax ← singleAxes page
  drawScene ax d outcome labels
  if nets then drawNets ax d outcome
  call ax "legend" []
    ([("handles", .list legendEntries), ("loc", .text "upper right"), fontSize 8,
      ("framealpha", fraction 8 10)] ++ legendColors)
  let title := match outcome with
    | some o => "Macro Floorplan  (cost " ++ fixedText 4 o.finalCost ++ ", seed " ++ seedText o.seed
        ++ ")"
    | none => "Macro Floorplan"
  call ax "set_xlabel" [.text "X"] [fontSize 11]
  call ax "set_ylabel" [.text "Y"] [fontSize 11]
  call ax "set_title" [.text title] (bold 14 ++ [("pad", .count 15)])
  call "plt" "tight_layout" [] []
  save page "floorplan"

/-- The smaller of two numbers; one without a value if either has none. -/
def smallerOrNaN (a b : Float) : Float := if a ≤ b || !(a == a) then a else b

/-- The least cost so far after every step. -/
def runningBest : List Float → List Float
  | [] => []
  | x :: rest => (rest.scanl smallerOrNaN x)

/-- The numbers from zero up to the length of a list. -/
def steps (xs : List Float) : Arg := .list ((List.range xs.length).map fun (i : Nat) => .count i)

/-- The course of a search: cost, best cost so far, and temperature. -/
def drawConvergence (page : Page) (title : String) (costs temperatures : List Float) :
    Draw String := do
  let ax ← singleAxes page
  call ax "plot" [steps costs, reals costs]
    [paint accent, ("linewidth", fraction 15 10), ("alpha", fraction 9 10), ("label", .text "Cost")]
  if !costs.isEmpty then
    call ax "plot" [steps costs, reals (runningBest costs)]
      [paint blockageColor, ("linewidth", .count 2), ("linestyle", .text "--"),
        ("label", .text "Best Cost"), ("alpha", fraction 8 10)]
  call ax "set_xlabel" [.text "Temperature step"] [fontSize 11]
  call ax "set_ylabel" [.text "Cost"] [fontSize 11, paint accent]
  call ax "tick_params" [] [("axis", .text "y"), ("labelcolor", .text accent.text)]
  if !temperatures.isEmpty then
    call ax "twinx" [] []
    let second ← newAxes
    call second "plot" [steps temperatures, reals temperatures]
      [paint fenceColor, ("linewidth", .count 1), ("alpha", fraction 5 10),
        ("label", .text "Temperature")]
    call second "set_ylabel" [.text "Temperature"] [fontSize 11, paint fenceColor]
    call second "tick_params" [] [("axis", .text "y"), ("labelcolor", .text fenceColor.text)]
    call second "set_yscale" [.text "log"] []
  call ax "set_title" [.text title] (bold 14 ++ [("pad", .count 15)])
  call ax "legend" [] ([("loc", .text "upper right"), fontSize 9] ++ legendColors)
  call ax "grid" [.flag true] [("alpha", fraction 1 10)]
  call "plt" "tight_layout" [] []
  save page "convergence plot"

/-- Makes the next axes of the board. -/
def boardAxes : Draw String := do
  call "fig" "add_subplot" [.text "<gs>"] []
  newAxes

/-- Scene, terms and course of a run on one board; the run took `seconds`. -/
def drawBoard (page : Page) (d : Design Float) (o : Outcome Float) (seconds : Float) :
    Draw String := do
  call "plt" "figure" [] [("figsize", page.size), ("dpi", page.resolution)]
  let scene ← boardAxes
  drawScene scene d (some o) true
  call scene "set_title" [.text "Floorplan"] (bold 12)
  let terms ← boardAxes
  call terms "barh" [.list (o.penalties.map fun p => .text p.1), reals (o.penalties.map (·.2))]
    [paint accent, ("alpha", fraction 7 10), ("edgecolor", .text "white")]
  call terms "invert_yaxis" [] []
  call terms "set_xlabel" [.text "Normalized value"] [fontSize 9]
  call terms "set_title" [.text "Penalty Terms"] (bold 12)
  call terms "grid" [.flag true] [("alpha", fraction 1 10)]
  let course ← boardAxes
  if o.costs.isEmpty then
    call course "text" [fraction 1 2, fraction 1 2, .text "No optimization data"]
      [("ha", .text "center"), ("va", .text "center"), fontSize 11, paint textColor]
  else
    call course "plot" [reals o.costs] [paint accent, ("linewidth", .count 1)]
    call course "plot" [reals (runningBest o.costs)]
      [paint blockageColor, ("linewidth", fraction 15 10), ("linestyle", .text "--")]
    call course "grid" [.flag true] [("alpha", fraction 1 10)]
  call course "set_title" [.text "Convergence"] (bold 12)
  let title := "Floorplan Summary: seed " ++ seedText o.seed ++ ", cost " ++ fixedText 4 o.finalCost
    ++ ", " ++ toString o.iterations ++ " moves in " ++ fixedText 1 seconds ++ "s"
  call "fig" "suptitle" [.text title] (bold 16 ++ [("y", fraction 98 100)])
  save page "dashboard"

end BlockPlan.Drawing
