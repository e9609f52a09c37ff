import BlockPlan.Block.Reshape
import BlockPlan.Net

/-!
# Designs

A design is a placement problem: an outline, the blocks to place inside it, the nets between them
and fixed terminals, areas that are blocked, and for some blocks a region they should be near
(their guide) or must stay in (their fence).

`Design.validate` names the first flaw of a design, if it has one, and `Design.Valid` says without
reference to that order what a flawless design is.
-/

namespace BlockPlan

variable {α : Type}

/-- A placement problem.  Terminals, guides and fences are listed under distinct names. -/
structure Design (α : Type) where
  outlineWidth : α
  outlineHeight : α
  blocks : List (Block α) := []
  nets : List (Net α) := []
  terminals : Points α := []
  blockages : List (Rect α) := []
  guides : List (String × Rect α) := []
  fences : List (String × Rect α) := []

namespace Design

variable [Scalar α]

/-- The first name in a list that is among `seen` or stands in front of it in the list. -/
def firstRepeated? (seen : List String) : List String → Option String
  | [] => none
  | name :: rest => if seen.contains name then some name else firstRepeated? (name :: seen) rest

omit [Scalar α] in
/-- The names of the blocks. -/
def blockNames (d : Design α) : List String := d.blocks.map (·.name)

omit [Scalar α] in
/-- Whether a net may have a member of this name. -/
def isKnown (d : Design α) (member : String) : Bool :=
  d.blockNames.contains member || (d.terminals.map (·.1)).contains member

/-- Checks that every region belongs to a block and has sides above zero. -/
def checkRegions (names : List String) (kind : RegionKind) :
    List (String × Rect α) → Except (Fault α) Unit
  | [] => .ok ()
  | (name, r) :: rest =>
    if !names.contains name then .error (.regionOfUnknown kind name)
    else if r.width ≤ 0 ∨ r.height ≤ 0 then .error (.emptyRegion kind name)
    else checkRegions names kind rest

/-- The first member of a net that is unknown, with the name of the net. -/
def unknownMember? (d : Design α) : Option (String × String) :=
  d.nets.findSome? fun net =>
    (net.members.find? fun member => !d.isKnown member).map fun member => (net.name, member)

/-- Names the first flaw of a design: the outline, names of blocks, names of terminals, members of
nets, guides, fences. -/
def validate (d : Design α) : Except (Fault α) Unit :=
  if d.outlineWidth ≤ 0 ∨ d.outlineHeight ≤ 0 then
    .error (.outlineSides d.outlineWidth d.outlineHeight)
  else
    match firstRepeated? [] d.blockNames with
    | some name => .error (.duplicateBlock name)
    | none =>
      match (d.terminals.map (·.1)).find? d.blockNames.contains with
      | some name => .error (.terminalClash name)
      | none =>
        match d.unknownMember? with
        | some (net, member) => .error (.unknownMember net member)
        | none => do
          checkRegions d.blockNames .guide d.guides
          checkRegions d.blockNames .fence d.fences

omit [Scalar α] in
/-- Edits the block in a slot of the list of blocks. -/
def editBlock {β : Type} (slot : Int) (edit : Edit α (Block α) β) : Edit α (Design α) β :=
  Edit.within Design.blocks (fun bs d => { d with blocks := bs }) (Block.editAt slot edit)

/-- A design without a flaw. -/
structure Valid (d : Design α) : Prop where
  width_pos : ¬ d.outlineWidth ≤ 0
  height_pos : ¬ d.outlineHeight ≤ 0
  names_nodup : d.blockNames.Nodup
  terminals_apart : ∀ t ∈ d.terminals, t.1 ∉ d.blockNames
  members_known : ∀ n ∈ d.nets, ∀ m ∈ n.members, d.isKnown m = true
  guides_known : ∀ g ∈ d.guides, g.1 ∈ d.blockNames ∧ ¬ g.2.width ≤ 0 ∧ ¬ g.2.height ≤ 0
  fences_known : ∀ f ∈ d.fences, f.1 ∈ d.blockNames ∧ ¬ f.2.width ≤ 0 ∧ ¬ f.2.height ≤ 0

end Design

end BlockPlan
