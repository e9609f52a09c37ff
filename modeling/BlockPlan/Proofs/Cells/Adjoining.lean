import BlockPlan.Proofs.Cells.Picture

/-!
# Sides that something lies against

A box that another one lies against on some side cannot be widened there without sharing more with
it.  On a grid, the cells that are not free are those of some boxes; so a box with a cell in front
of it that is not free has one of these against that side.

* `Side`, `Box.edge`, `Box.widen` — the sides of a box, and a box with one of them moved outwards.
* `Box.Against`, **`Box.Against.overlap_lt`** — a box against a side, and what it shares once that
  side has moved.
* `Box.Stopped` — a side at the edge of an outline or with a box against it.
* **`Box.Stopped.spoils`** — moving such a side leaves the outline or makes the overlap with another
  box larger.
* `Grid.HeldBy`, `Grid.Charts.heldBy` — the cells that are not free are covered by some boxes.
-/

namespace BlockPlan

/-- The four sides of a box. -/
inductive Side where
  | left | right | bottom | top
  deriving DecidableEq, Repr

namespace Box

/-! ## Moving a side -/

/-- Where a side of a box lies. -/
def edge (b : Box Rat) : Side → Rat
  | .left => b.xMin
  | .right => b.xMax
  | .bottom => b.yMin
  | .top => b.yMax

/-- A box with one side moved outwards. -/
def widen (side : Side) (δ : Rat) (b : Box Rat) : Box Rat :=
  match side with
  | .left => { b with xMin := b.xMin - δ }
  | .right => { b with xMax := b.xMax + δ }
  | .bottom => { b with yMin := b.yMin - δ }
  | .top => { b with yMax := b.yMax + δ }

/-- A box lies against a side of another one: it reaches up to that side and beyond it, and the two
share a part of the other axis. -/
def Against (side : Side) (r b : Box Rat) : Prop :=
  match side with
  | .left => (r.xMin < b.xMin ∧ b.xMin ≤ r.xMax) ∧ 0 < shared b.yMin b.yMax r.yMin r.yMax
  | .right => (r.xMin ≤ b.xMax ∧ b.xMax < r.xMax) ∧ 0 < shared b.yMin b.yMax r.yMin r.yMax
  | .bottom => (r.yMin < b.yMin ∧ b.yMin ≤ r.yMax) ∧ 0 < shared b.xMin b.xMax r.xMin r.xMax
  | .top => (r.yMin ≤ b.yMax ∧ b.yMax < r.yMax) ∧ 0 < shared b.xMin b.xMax r.xMin r.xMax

section Lengths

variable {lo hi lo' hi' δ : Rat} (hle : lo ≤ hi) (hδ : 0 < δ)

include hle hδ

/-- A span whose lower end lies in another one shares more once that end moves down. -/
lemma shared_lt_down (hbefore : lo' < lo) (hbehind : lo ≤ hi') :
    shared lo hi lo' hi' < shared (lo - δ) hi lo' hi' := by
  rw [shared, max_eq_left hbefore.le, max_eq_right (sub_nonneg.mpr (le_min hle hbehind))]
  exact (sub_lt_sub_left (max_lt (sub_lt_self lo hδ) hbefore) _).trans_le (le_max_right _ _)

/-- A span whose upper end lies in another one shares more once that end moves up. -/
lemma shared_lt_up (hbefore : lo' ≤ hi) (hbehind : hi < hi') :
    shared lo hi lo' hi' < shared lo (hi + δ) lo' hi' := by
  rw [shared, min_eq_left hbehind.le, max_eq_right (sub_nonneg.mpr (max_le hle hbefore))]
  exact (sub_lt_sub_right (lt_min (lt_add_of_pos_right hi hδ) hbehind) _).trans_le
    (le_max_right _ _)

end Lengths

variable {a b r r' : Box Rat} {side : Side} {δ : Rat}

/-- **A box that lies against a side shares more with the other one once that side has moved.** -/
theorem Against.overlap_lt (h : r.Against side b) (hx : b.xMin ≤ b.xMax) (hy : b.yMin ≤ b.yMax)
    (hδ : 0 < δ) : b.overlap r < (b.widen side δ).overlap r := by
  rw [overlap_eq, overlap_eq]
  cases side with
  | left => exact mul_lt_mul_of_pos_right (shared_lt_down hx hδ h.1.1 h.1.2) h.2
  | right => exact mul_lt_mul_of_pos_right (shared_lt_up hx hδ h.1.1 h.1.2) h.2
  | bottom => exact mul_lt_mul_of_pos_left (shared_lt_down hy hδ h.1.1 h.1.2) h.2
  | top => exact mul_lt_mul_of_pos_left (shared_lt_up hy hδ h.1.1 h.1.2) h.2

/-- A larger box lies against all sides that a smaller one does. -/
lemma Against.covers (h : r.Against side b) (hr : r'.Covers r) : r'.Against side b := by
  have hshared : ∀ {lo hi s e s' e' : Rat}, s' ≤ s → e ≤ e' → 0 < shared lo hi s e →
      0 < shared lo hi s' e' := by
    intro lo hi s e s' e' hs he hpos
    rw [shared_comm] at hpos ⊢
    exact hpos.trans_le (shared_mono hs he _ _)
  cases side with
  | left => exact ⟨⟨hr.xMin.trans_lt h.1.1, h.1.2.trans hr.xMax⟩, hshared hr.yMin hr.yMax h.2⟩
  | right => exact ⟨⟨hr.xMin.trans h.1.1, h.1.2.trans_le hr.xMax⟩, hshared hr.yMin hr.yMax h.2⟩
  | bottom => exact ⟨⟨hr.yMin.trans_lt h.1.1, h.1.2.trans hr.yMax⟩, hshared hr.xMin hr.xMax h.2⟩
  | top => exact ⟨⟨hr.yMin.trans h.1.1, h.1.2.trans_le hr.yMax⟩, hshared hr.xMin hr.xMax h.2⟩

/-- A box that grows and leaves a side where it is keeps what lies against that side. -/
lemma Against.grow (h : r.Against side b) (ha : a.Covers b) (hedge : a.edge side = b.edge side) :
    r.Against side a := by
  have hrows := shared_mono ha.yMin ha.yMax r.yMin r.yMax
  have hcolumns := shared_mono ha.xMin ha.xMax r.xMin r.xMax
  cases side with
  | left =>
      obtain ⟨hreach, hpos⟩ := h
      rw [← show a.xMin = b.xMin from hedge] at hreach
      exact ⟨hreach, hpos.trans_le hrows⟩
  | right =>
      obtain ⟨hreach, hpos⟩ := h
      rw [← show a.xMax = b.xMax from hedge] at hreach
      exact ⟨hreach, hpos.trans_le hrows⟩
  | bottom =>
      obtain ⟨hreach, hpos⟩ := h
      rw [← show a.yMin = b.yMin from hedge] at hreach
      exact ⟨hreach, hpos.trans_le hcolumns⟩
  | top =>
      obtain ⟨hreach, hpos⟩ := h
      rw [← show a.yMax = b.yMax from hedge] at hreach
      exact ⟨hreach, hpos.trans_le hcolumns⟩

/-! ## Sides that are stopped -/

/-- A side that lies on the edge of an outline, or that one of some boxes lies against. -/
def Stopped (b outline : Box Rat) (Near : Box Rat → Prop) (side : Side) : Prop :=
  b.edge side = outline.edge side ∨ ∃ r, Near r ∧ r.Against side b

variable {outline : Box Rat} {Near Near' : Box Rat → Prop}

/-- A side is still stopped after the boxes around it have grown. -/
lemma Stopped.mono (h : b.Stopped outline Near side)
    (hnear : ∀ r, Near r → ∃ r', Near' r' ∧ r'.Covers r) : b.Stopped outline Near' side := by
  rcases h with hedge | ⟨r, hr, hagainst⟩
  · exact Or.inl hedge
  · obtain ⟨r', hr', hcovers⟩ := hnear r hr
    exact Or.inr ⟨r', hr', hagainst.covers hcovers⟩

/-- A side is still stopped after the box has grown on its other sides. -/
lemma Stopped.grow (h : b.Stopped outline Near side) (ha : a.Covers b)
    (hedge : a.edge side = b.edge side) : a.Stopped outline Near side := by
  rcases h with hout | ⟨r, hr, hagainst⟩
  · exact Or.inl (hedge.trans hout)
  · exact Or.inr ⟨r, hr, hagainst.grow ha hedge⟩

/-- **A side that is stopped cannot move outwards** without leaving the outline or sharing more with
another box. -/
theorem Stopped.spoils (h : b.Stopped outline Near side) (hx : b.xMin ≤ b.xMax)
    (hy : b.yMin ≤ b.yMax) (hδ : 0 < δ) :
    ¬ outline.Covers (b.widen side δ) ∨ ∃ r, Near r ∧ b.overlap r < (b.widen side δ).overlap r := by
  rcases h with hedge | ⟨r, hr, hagainst⟩
  · refine Or.inl fun hcovers => ?_
    cases side with
    | left => exact (sub_lt_self b.xMin hδ).not_ge (hedge.trans_le hcovers.xMin)
    | right => exact (lt_add_of_pos_right b.xMax hδ).not_ge (hcovers.xMax.trans hedge.ge)
    | bottom => exact (sub_lt_self b.yMin hδ).not_ge (hedge.trans_le hcovers.yMin)
    | top => exact (lt_add_of_pos_right b.yMax hδ).not_ge (hcovers.yMax.trans hedge.ge)
  · exact Or.inr ⟨r, hr, hagainst.overlap_lt hx hy hδ⟩

end Box

/-! ## Cells that are held -/

namespace Grid

variable {g : Grid Rat} {Near Near' : Box Rat → Prop}

/-- Every cell that is not free is covered by one of some boxes. -/
def HeldBy (g : Grid Rat) (Near : Box Rat → Prop) : Prop :=
  ∀ r c o, g.cell? r c = some o → o ≠ .free → ∃ b, Near b ∧ b.Covers (g.cellBox r c)

lemma HeldBy.mono (h : g.HeldBy Near) (hnear : ∀ b, Near b → Near' b) : g.HeldBy Near' := by
  intro r c o ho hne
  obtain ⟨b, hb, hcovers⟩ := h r c o ho hne
  exact ⟨b, hnear b hb, hcovers⟩

/-- The cells of a layout are held by its blocks and its blockages. -/
lemma Charts.heldBy {width height : Rat} {blocks blockages : List (Box Rat)}
    (h : g.Charts width height blocks blockages) : g.HeldBy (· ∈ blocks ++ blockages) := by
  intro r c o ho hne
  obtain ⟨-, hwho⟩ := (h.occupied r c o).mp ho
  cases hwho with
  | blocked b hb hcovers => exact ⟨b, List.mem_append_right _ hb, hcovers⟩
  | owned i b hb hcovers => exact ⟨b, List.mem_append_left _ (List.mem_of_getElem? hb), hcovers⟩
  | free => exact absurd rfl hne

end Grid

end BlockPlan
