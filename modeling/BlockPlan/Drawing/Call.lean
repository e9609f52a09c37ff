import BlockPlan.Drawing.Color

/-!
# Drawing calls

A drawing is a list of calls on a plotting surface: its figures, its axes and its settings.  Nothing
is rendered here; whoever has such a surface can carry the calls out one by one.
-/

namespace BlockPlan.Drawing

/-- An argument of a call. -/
inductive Arg where
  | nothing
  | flag (b : Bool)
  | count (n : Int)
  | real (x : Float)
  | text (s : String)
  | list (xs : List Arg)
  | record (fields : List (String × Arg))
  deriving Inhabited

/-- A method of a target, called with positional arguments and with named ones. -/
structure Call where
  target : String
  method : String
  positional : List Arg := []
  named : List (String × Arg) := []

/-- The calls so far, in order, and the number of axes that were made. -/
structure Canvas where
  calls : List Call := []
  axes : Nat := 0

/-- A piece of drawing. -/
abbrev Draw (β : Type) := StateM Canvas β

/-- Adds a call. -/
def call (target method : String) (positional : List Arg) (named : List (String × Arg)) :
    Draw Unit :=
  modify fun c => { c with calls := c.calls ++ [⟨target, method, positional, named⟩] }

/-- Makes new axes and answers their name. -/
def newAxes : Draw String := do
  modify fun c => { c with axes := c.axes + 1 }
  return "ax" ++ toString (← get).axes

/-- A colour as an argument. -/
def paint (c : Color) : String × Arg := ("color", .text c.text)

/-- A list of numbers as an argument. -/
def reals (xs : List Float) : Arg := .list (xs.map .real)

/-- The number `p / q` as an argument. -/
def fraction (p q : Nat) : Arg := .real (Scalar.ratio p q)

/-- A whole number that is given as a real one. -/
def wholeReal (n : Nat) : Arg := .real (Float.ofNat n)

/-- What a rectangle looks like; without a face it is transparent inside. -/
structure Look where
  face : Option Color := none
  edge : Color
  lineWidth : Float
  lineStyle : String := "solid"
  hatch : Option String := none
  opacity : Float := 1

/-- A rectangle as an argument. -/
def rectangle (x y width height : Float) (look : Look) : Arg :=
  .record
    [ ("rect", reals [x, y, width, height]),
      ("face", .text (match look.face with
        | some c => c.textWith look.opacity
        | none => transparent)),
      ("edge", .text (look.edge.textWith look.opacity)),
      ("lw", .real look.lineWidth),
      ("ls", .text look.lineStyle),
      ("hatch", match look.hatch with
        | some h => .text h
        | none => .nothing) ]

/-- An entry of a legend. -/
def legendEntry (label face edge : String) : Arg :=
  .record [("label", .text label), ("face", .text face), ("edge", .text edge)]

/-- Line segments as an argument. -/
def segments (lines : List ((Float × Float) × (Float × Float))) : Arg :=
  .record [("segments", .list (lines.map fun (p, q) =>
    .list [reals [p.1, p.2], reals [q.1, q.2]]))]

end BlockPlan.Drawing
