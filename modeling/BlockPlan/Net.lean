import BlockPlan.Rect

/-!
# Nets

A net connects blocks and terminals by name.  Its length is estimated by half the perimeter of the
smallest box around its members, times the weight of the net; members whose position is unknown do
not count.
-/

namespace BlockPlan

variable {α : Type}

/-- Known points by name. -/
abbrev Points (α : Type) := List (String × (α × α))

/-- The value under a name in a list of pairs. -/
def lookUp {β : Type} (name : String) (entries : List (String × β)) : Option β :=
  (entries.find? (·.1 == name)).map (·.2)

/-- Enters a value under a name: in the place of a former value, or else at the end. -/
def enter {β : Type} (name : String) (value : β) : List (String × β) → List (String × β)
  | [] => [(name, value)]
  | (n, v) :: rest =>
    if n == name then (name, value) :: rest else (n, v) :: enter name value rest

/-- Enters all pairs in turn. -/
def enterAll {β : Type} (entries table : List (String × β)) : List (String × β) :=
  entries.foldl (fun table (name, value) => enter name value table) table

/-- A weighted connection. -/
structure Net (α : Type) where
  name : String
  members : List String
  weight : α
  deriving DecidableEq, Repr

namespace Net

variable [Scalar α]

/-- A net, whose weight may not be negative. -/
def make (name : String) (members : List String) (weight : α) : Except (Fault α) (Net α) :=
  if weight < 0 then .error (.negativeNetWeight name weight) else .ok ⟨name, members, weight⟩

omit [Scalar α] in
/-- Connects one more member. -/
def add (member : String) (n : Net α) : Net α := { n with members := n.members ++ [member] }

/-- The smallest box around the known members, if at least two are known. -/
def boundingBox? (points : Points α) (n : Net α) : Option (Box α) :=
  match n.members.filterMap (lookUp · points) with
  | p :: q :: rest =>
    let xs := (q :: rest).map (·.1)
    let ys := (q :: rest).map (·.2)
    some ⟨Scalar.smallest p.1 xs, Scalar.smallest p.2 ys,
      Scalar.largest p.1 xs, Scalar.largest p.2 ys⟩
  | _ => none

/-- The weighted half perimeter of that box; zero without one. -/
def length (points : Points α) (n : Net α) : α :=
  match n.boundingBox? points with
  | some b => ((b.xMax - b.xMin) + (b.yMax - b.yMin)) * n.weight
  | none => 0

/-- One line about a net, which names its first four members. -/
def describe (n : Net Float) : String :=
  let shown := ", ".intercalate (n.members.take 4)
  let more := n.members.length - 4
  let members := if 4 < n.members.length then shown ++ s!", ... (+{more} more)" else shown
  let name := n.name
  s!"Net('{name}', [{members}], w=" ++ Decimal.generalText 6 n.weight ++ ")"

end Net

end BlockPlan
