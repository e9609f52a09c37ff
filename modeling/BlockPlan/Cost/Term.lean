import BlockPlan.Fault

/-!
# The terms of the cost

Eight terms make up the cost of a layout.  A `PerTerm` holds one value for each of them: a weight, a
raw value, a norm.
-/

namespace BlockPlan

/-- The terms of the cost. -/
inductive Term where
  /-- The area of the bounding box as a share of the outline. -/
  | area
  /-- How far blocks stick out of the outline. -/
  | outline
  /-- The weighted length of the nets. -/
  | wirelength
  /-- How far blocks are from their guides. -/
  | guidance
  /-- The area of blocks outside their fences. -/
  | fence
  /-- How far blocks that prefer the edge are from it. -/
  | boundary
  /-- The area that blocks share with blockages. -/
  | blockage
  /-- The share of the outline that is free but too narrow to be used. -/
  | notch
  deriving DecidableEq, Repr

namespace Term

/-- All terms, in the order in which they are reported. -/
def all : List Term :=
  [.area, .outline, .wirelength, .guidance, .fence, .boundary, .blockage, .notch]

/-- The name of a term. -/
def name : Term → String
  | .area => "area"
  | .outline => "outline"
  | .wirelength => "wirelength"
  | .guidance => "guidance"
  | .fence => "fence"
  | .boundary => "boundary"
  | .blockage => "macro_blockage"
  | .notch => "notch"

/-- The term of a name. -/
def ofName? (name : String) : Option Term := all.find? (·.name == name)

/-- The list of all terms is complete. -/
theorem mem_all (t : Term) : t ∈ all := by cases t <;> simp [all]

end Term

/-- One value for each term. -/
structure PerTerm (β : Type) where
  area : β
  outline : β
  wirelength : β
  guidance : β
  fence : β
  boundary : β
  blockage : β
  notch : β
  deriving DecidableEq, Repr

namespace PerTerm

variable {β γ : Type}

/-- The value of a term. -/
def get (p : PerTerm β) : Term → β
  | .area => p.area
  | .outline => p.outline
  | .wirelength => p.wirelength
  | .guidance => p.guidance
  | .fence => p.fence
  | .boundary => p.boundary
  | .blockage => p.blockage
  | .notch => p.notch

/-- The values given by a function. -/
def ofFn (f : Term → β) : PerTerm β :=
  ⟨f .area, f .outline, f .wirelength, f .guidance, f .fence, f .boundary, f .blockage, f .notch⟩

/-- The same value for all terms. -/
def const (b : β) : PerTerm β := ofFn fun _ => b

/-- Replaces the value of one term. -/
def set (p : PerTerm β) (t : Term) (b : β) : PerTerm β :=
  match t with
  | .area => { p with area := b }
  | .outline => { p with outline := b }
  | .wirelength => { p with wirelength := b }
  | .guidance => { p with guidance := b }
  | .fence => { p with fence := b }
  | .boundary => { p with boundary := b }
  | .blockage => { p with blockage := b }
  | .notch => { p with notch := b }

/-- Applies a function to every value. -/
def map (f : β → γ) (p : PerTerm β) : PerTerm γ := ofFn fun t => f (p.get t)

/-- The values in the order of the terms. -/
def toList (p : PerTerm β) : List β := Term.all.map p.get

/-- Replaces the values of the first terms by those of a list, as far as it reaches. -/
def overwrite (p : PerTerm β) (values : List β) : PerTerm β :=
  (List.zip Term.all values).foldl (fun p (t, b) => p.set t b) p

@[simp] theorem get_ofFn (f : Term → β) (t : Term) : (ofFn f).get t = f t := by cases t <;> rfl

@[simp] theorem get_map (f : β → γ) (p : PerTerm β) (t : Term) :
    (p.map f).get t = f (p.get t) := by simp [map]

/-- Setting a value changes that value and no other. -/
theorem get_set (p : PerTerm β) (t u : Term) (b : β) :
    (p.set t b).get u = if u = t then b else p.get u := by
  cases t <;> cases u <;> rfl

/-- Two families with the same values are the same. -/
theorem ext_get {p q : PerTerm β} (h : ∀ t, p.get t = q.get t) : p = q := by
  cases p; cases q
  have ha := h .area; have ho := h .outline; have hw := h .wirelength; have hg := h .guidance
  have hf := h .fence; have hb := h .boundary; have hk := h .blockage; have hn := h .notch
  simp_all [get]

end PerTerm

/-- The weight of every term.  A term without weight is disabled. -/
abbrev Weights (α : Type) := PerTerm α

namespace Weights

variable {α : Type} [Scalar α]

/-- The weights that hold unless others are given: the area, the outline and the wires count. -/
def standard : Weights α := { PerTerm.const 0 with area := 1, outline := 1, wirelength := 1 }

/-- Refuses the first weight below zero. -/
def validate (w : Weights α) : Except (Fault α) Unit :=
  match Term.all.find? fun t => decide (w.get t < 0) with
  | some t => .error (.negativeWeight t.name (w.get t))
  | none => .ok ()

/-- Multiplies all weights by a factor. -/
def scaled (w : Weights α) (factor : α) : Weights α := w.map (· * factor)

end Weights

end BlockPlan
