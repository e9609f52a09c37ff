import BlockPlan.Block.Reshape
import BlockPlan.Proofs.Edit

/-!
# The makeup and the shape of a block

Whatever changes the shape of a block leaves its *makeup* alone: the name, the shapes to choose from
and the wish for an edge.  A block that shows the shape in force is determined by its makeup, its
shape key and its position.

* **`eq_of_shapeKey`** — makeup, shape key and position determine a block that shows its shape.
* `hard_wellFormed`, `soft_wellFormed`, `softOfArea_wellFormed` — a block that is made shows its
  shape, and all its shapes have positive sides.
-/

namespace BlockPlan

variable {α : Type}

/-- The shapes to choose from. -/
def Form.menu : Form α → (α × α × List Orientation) ⊕ List (α × α)
  | .hard w h allowed _ => .inl (w, h, allowed)
  | .soft candidates _ => .inr candidates

namespace Block

/-- What a block keeps when its shape or its position changes. -/
def makeup (b : Block α) : String × Bool × ((α × α × List Orientation) ⊕ List (α × α)) :=
  (b.name, b.prefersEdge, b.form.menu)

/-- Whether a block has a shape of a key, counted from the front. -/
def Lists (b : Block α) (key : ShapeKey) : Prop :=
  match b.form, key with
  | .hard _ _ allowed _, .orientation o => o ∈ allowed
  | .soft candidates _, .candidate i => 0 ≤ i ∧ i.toNat < candidates.length
  | _, _ => False

@[simp] lemma showsShape_place {x y : α} {b : Block α} : (b.place x y).ShowsShape ↔ b.ShowsShape :=
  Iff.rfl

lemma lists_orientation {b : Block α} {w h : α} {allowed : List Orientation}
    {former o : Orientation} (hform : b.form = .hard w h allowed former) :
    b.Lists (.orientation o) ↔ o ∈ allowed := by
  simp only [Lists, hform]

lemma lists_candidate {b : Block α} {candidates : List (α × α)} {former i : Int}
    (hform : b.form = .soft candidates former) :
    b.Lists (.candidate i) ↔ 0 ≤ i ∧ i.toNat < candidates.length := by
  simp only [Lists, hform]

lemma Lists.congr {b c : Block α} {key : ShapeKey} (h : b.Lists key)
    (hmakeup : c.makeup = b.makeup) :
    c.Lists key := by
  obtain ⟨_, cform, _, _, _, _, _⟩ := c
  obtain ⟨_, bform, _, _, _, _, _⟩ := b
  cases cform <;> cases bform <;> cases key <;>
    simp_all [Lists, makeup, Form.menu]

lemma PositiveShapes.congr [Scalar α] {b c : Block α} (h : b.PositiveShapes)
    (hmakeup : c.makeup = b.makeup) : c.PositiveShapes := by
  obtain ⟨_, cform, _, _, _, _, _⟩ := c
  obtain ⟨_, bform, _, _, _, _, _⟩ := b
  simp only [makeup, Prod.mk.injEq] at hmakeup
  obtain ⟨-, -, hmenu⟩ := hmakeup
  cases cform <;> cases bform <;> cases hmenu <;> exact h

/-- The shape in force is one of the shapes to choose from. -/
lemma ShowsShape.lists {b : Block α} (h : b.ShowsShape) : b.Lists b.shapeKey := by
  obtain ⟨_, form, _, _, _, _, _⟩ := b
  cases form with
  | hard w h allowed o => exact h.1
  | soft candidates index => exact ⟨h.1, (List.getElem?_eq_some_iff.mp h.2).1⟩

/-- A block that shows its shape is determined by its makeup, its shape key and its position. -/
lemma eq_of_shapeKey {b c : Block α} (hb : b.ShowsShape) (hc : c.ShowsShape)
    (hmakeup : b.makeup = c.makeup) (hkey : b.shapeKey = c.shapeKey) (hx : b.x = c.x)
    (hy : b.y = c.y) : b = c := by
  obtain ⟨bname, bform, bx, by', bwidth, bheight, bedge⟩ := b
  obtain ⟨cname, cform, cx, cy, cwidth, cheight, cedge⟩ := c
  simp only [makeup, Prod.mk.injEq] at hmakeup hx hy
  obtain ⟨rfl, rfl, hmenu⟩ := hmakeup
  subst hx hy
  have hform : bform = cform := by
    cases bform <;> cases cform <;> simp_all [Form.menu, shapeKey]
  subst hform
  -- the sides are those of the shape in force, on either side
  have hsides : (bwidth, bheight) = (cwidth, cheight) := by
    cases bform with
    | hard w h allowed o => exact hb.2.trans hc.2.symm
    | soft candidates index => exact Option.some.inj (hb.2.symm.trans hc.2)
  rw [Prod.mk.injEq] at hsides
  rw [hsides.1, hsides.2]

/-- Turning sides above zero leaves them above zero. -/
lemma orientedSides_pos {w h : Rat} (hw : 0 < w) (hh : 0 < h) (o : Orientation) :
    0 < (orientedSides w h o).1 ∧ 0 < (orientedSides w h o).2 := by
  rw [orientedSides]
  split_ifs
  exacts [⟨hh, hw⟩, ⟨hw, hh⟩]

lemma WellFormed.sides {b : Block Rat} (h : b.WellFormed) : 0 < b.width ∧ 0 < b.height := by
  obtain ⟨hshows, hpositive⟩ := h
  obtain ⟨_, form, _, _, _, _, _⟩ := b
  cases form with
  | hard w h allowed o =>
      have hsides := orientedSides_pos hpositive.1 hpositive.2 o
      rw [← hshows.2] at hsides
      exact hsides
  | soft candidates index => exact hpositive _ (List.mem_of_getElem? hshows.2)

/-! ## Making blocks -/

section Making

variable [Scalar α] {name : String} {spot : Placement α} {b : Block α}

lemma candidateSides_of_check {cs : List (α × α)} (h : checkCandidateSides name cs = .ok ()) :
    ∀ c ∈ cs, ¬ (c.1 ≤ 0 ∨ c.2 ≤ 0) := by
  induction cs with
  | nil => simp
  | cons c rest ih =>
      rw [checkCandidateSides] at h
      split_ifs at h with hsides
      intro d hd
      rcases List.mem_cons.mp hd with rfl | hd
      · exact hsides
      · exact ih h d hd

/-- A soft block that was made shows one of its candidates, all of which passed the check. -/
lemma soft_eq_ok {candidates : List (α × α)} {index : Int}
    (h : soft name candidates index spot = .ok b) :
    checkCandidateSides name candidates = .ok () ∧ b.form = .soft candidates index ∧
      0 ≤ index ∧ candidates[index.toNat]? = some (b.width, b.height) := by
  cases candidates with
  | nil => cases h
  | cons c rest =>
      simp only [soft, bind_eq_ok] at h
      obtain ⟨⟨⟩, hsides, ⟨⟩, -, h⟩ := h
      split_ifs at h with hindex
      · obtain ⟨_, hthrow, -⟩ := bind_eq_ok.mp h
        cases hthrow
      · cases hc : (c :: rest)[index.toNat]? with
        | none =>
            rw [hc] at h
            cases h
        | some d =>
            rw [hc] at h
            cases h
            exact ⟨hsides, rfl, not_lt.mp hindex, rfl⟩

end Making

section Exact

variable {name : String} {spot : Placement Rat} {b : Block Rat}

lemma hard_wellFormed {width height : Rat} {allowed : List Orientation} {o : Orientation}
    (h : hard name width height allowed o spot = .ok b) : b.WellFormed := by
  rw [hard] at h
  split_ifs at h with hsides hnone hlisted
  cases h
  simp only [Bool.not_eq_true', Bool.not_eq_false, List.contains_iff_mem] at hlisted
  push Not at hsides
  exact ⟨⟨hlisted, rfl⟩, hsides⟩

lemma soft_wellFormed {candidates : List (Rat × Rat)} {index : Int}
    (h : soft name candidates index spot = .ok b) : b.WellFormed := by
  obtain ⟨hcheck, hform, hindex, hshown⟩ := soft_eq_ok h
  constructor
  · rw [ShowsShape, hform]
    exact ⟨hindex, hshown⟩
  · rw [PositiveShapes, hform]
    intro c hc
    have hsides := candidateSides_of_check hcheck c hc
    push Not at hsides
    exact hsides

lemma softOfArea_wellFormed [Transcendental Rat] {area : Rat} {ratios : List Rat} {index : Int}
    (h : softOfArea name area ratios index spot = .ok b) : b.WellFormed := by
  rw [softOfArea] at h
  split_ifs at h
  obtain ⟨candidates, -, hsoft⟩ := bind_eq_ok.mp h
  exact soft_wellFormed hsoft

end Exact

end Block

end BlockPlan
