import BlockPlan.Design.Metrics

/-!
# A summary of a placed design

A framed table of the metrics (`Design.summary`) and one line about them (`Design.describe`).
-/

namespace BlockPlan.Design

open Decimal (fixedText padRight percentText)

/-- One row of the table; the text behind the label is 25 characters wide. -/
def row (label text : String) : String :=
  "│  " ++ padRight 15 label ++ padRight 25 text ++ "│"

/-- A horizontal line of the frame between two corners. -/
def rule (left right : String) : String :=
  left ++ String.ofList (List.replicate 42 '─') ++ right

/-- The metrics in a frame. -/
def summary (d : Design Float) : String :=
  let size := fixedText 1 d.outlineWidth ++ " × " ++ fixedText 1 d.outlineHeight
  "\n".intercalate
    [ rule "┌" "┐",
      "│  " ++ padRight 40 "Floorplan Summary" ++ "│",
      rule "├" "┤",
      row "Outline:" size,
      row "Macros:" (toString d.blocks.length),
      row "Utilization:" (padRight 24 (fixedText 1 (d.utilization * 100)) ++ "%"),
      row "Overlap Area:" (fixedText 1 d.overlapArea),
      row "Blocked Area:" (fixedText 1 d.blockedArea),
      row "Violations:" (toString d.violations.length),
      rule "└" "┘" ]

/-- Size, number of blocks and utilization. -/
def describe (d : Design Float) : String :=
  "Floorplan(" ++ fixedText 0 d.outlineWidth ++ "×" ++ fixedText 0 d.outlineHeight ++ ", macros="
    ++ toString d.blocks.length ++ ", util=" ++ percentText 1 d.utilization ++ ")"

end BlockPlan.Design
