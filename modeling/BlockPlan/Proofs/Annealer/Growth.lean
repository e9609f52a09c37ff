import BlockPlan.Annealer.Fill
import BlockPlan.Proofs.Cells.Adjoining

/-!
# Growing on a grid

A block that takes free cells grows by what is clear of all other boxes.  Each step takes one strip
of cells, in front of the block or behind it; the steps of one block are chained, and what it has
taken is free for no other block.  A direction ends at the edge of the outline or at a strip that is
not free, and then one of the boxes that hold the cells lies against that side.

* `Grows` — a box that takes free cells while it grows to another one.
* **`Grows.fill`** — one strip of free cells.
* `growDown_grows`, `growUp_grows`, `growBoth_grows` — as many strips as are free.
* `HeldBy.stopped_left`, `stopped_right`, `stopped_bottom`, `stopped_top` — what lies behind a strip
  that is not free.
* `Grows.stopped_both` — growth in both directions along an axis is stopped at both ends.
* **`growBlock_grows`** — one block, in all four directions.
-/

namespace BlockPlan

namespace Grid

variable {g g' g'' : Grid Rat} {a a' a'' : Box Rat} {owner : Cell} {left right bottom top : Nat}

/-- A box that grows to another one while cells are taken: it shares no more than before with any
box that the free cells are clear of, it takes all the free cells that it grows into, and covers
what it takes. -/
structure Grows (g : Grid Rat) (a : Box Rat) (g' : Grid Rat) (a' : Box Rat) : Prop where
  taken : Taken g g'
  covers : a'.Covers a
  overlap : ∀ b, g.Clear b → a'.overlap b = a.overlap b
  clear : g.Clear a → g'.Clear a'
  held : ∀ Near : Box Rat → Prop, (g.HeldBy fun b => b = a ∨ Near b) →
    g'.HeldBy fun b => b = a' ∨ Near b

lemma Grows.refl (h : g.Shaped) (a : Box Rat) : Grows g a g a :=
  ⟨Taken.refl h, Box.Covers.refl a, fun _ _ => rfl, id, fun _ => id⟩

lemma Grows.trans (h : Grows g a g' a') (h' : Grows g' a' g'' a'') : Grows g a g'' a'' where
  taken := h.taken.trans h'.taken
  covers := h'.covers.trans h.covers
  overlap b hb := by rw [h'.overlap b (h.taken.clear b hb), h.overlap b hb]
  clear ha := h'.clear (h.clear ha)
  held Near hheld := h'.held Near (h.held Near hheld)

/-! ## One strip -/

/-- The cells between two columns and two rows. -/
def strip (left right bottom top : Nat) : Region :=
  ⟨((bottom : Int), (top : Int)), ((left : Int), (right : Int))⟩

lemma strip_front : (strip left right bottom top).Front := by
  constructor <;> constructor <;> exact Int.natCast_nonneg _

lemma strip_has {r c : Nat} :
    (strip left right bottom top).Has r c ↔ (bottom ≤ r ∧ r < top) ∧ left ≤ c ∧ c < right := by
  simp only [Region.Has, strip, Nat.cast_le, Nat.cast_lt]

/-- The boxes between lines further out cover those between lines further in. -/
lemma Shaped.regionBox_covers (h : g.Shaped) {left' right' bottom' top' : Nat}
    (hleft : left ≤ left') (hleft' : left' < g.xLines.length) (hright : right' ≤ right)
    (hright' : right < g.xLines.length) (hbottom : bottom ≤ bottom')
    (hbottom' : bottom' < g.yLines.length) (htop : top' ≤ top) (htop' : top < g.yLines.length) :
    (g.regionBox left right bottom top).Covers (g.regionBox left' right' bottom' top') :=
  ⟨line_mono h.xSorted hleft hleft', line_mono h.ySorted hbottom hbottom',
    line_mono h.xSorted hright hright', line_mono h.ySorted htop htop'⟩

/-- **A box may grow by a strip of free cells.**  What the strip shares with
other boxes is nothing. -/
theorem Grows.fill (h : g.Shaped) (howner : owner ≠ .free) (hcolumns : left ≤ right)
    (hright : right < g.xLines.length) (hrows : bottom ≤ top) (htop : top < g.yLines.length)
    (hfree : g.isFree (strip left right bottom top) = true) (hcovers : a'.Covers a)
    (hstrip : a'.Covers (g.regionBox left right bottom top))
    (hparts : ∀ b, a'.overlap b = a.overlap b + (g.regionBox left right bottom top).overlap b) :
    Grows g a (g.fill (strip left right bottom top) owner) a' := by
  have hfront : (strip left right bottom top).Front := strip_front
  have htaken := fill_taken h hfront howner
  refine ⟨htaken, hcovers, ?_, ?_, ?_⟩
  · intro b hb
    have hstrip : (g.regionBox left right bottom top).overlap b = 0 := by
      refine regionBox_overlap_eq_zero h hcolumns hright hrows htop
        fun r c hbottom hr hleft hc => ?_
      obtain ⟨cell, hcell⟩ := h.exists_cell (r := r) (c := c) (by omega) (by omega)
      obtain rfl := (isFree_iff hfront).mp hfree r c cell hcell
        (strip_has.mpr ⟨⟨hbottom, hr⟩, hleft, hc⟩)
      exact hb r c hcell
    rw [hparts, hstrip, add_zero]
  · intro ha r c hcell
    obtain ⟨hr, hc⟩ := htaken.shaped.lt_of_cell? hcell
    rw [cell?_fill hfront, Option.map_eq_some_iff] at hcell
    obtain ⟨old, hold, hnew⟩ := hcell
    split_ifs at hnew with hhas
    · exact absurd hnew howner
    · rw [strip_has] at hhas
      subst hnew
      have hcell : (g.cellBox r c).overlap a' = 0 := by
        rw [Box.overlap_comm, hparts, Box.overlap_comm, ha r c hold, zero_add]
        exact regionBox_overlap_cellBox h (hcolumns.trans_lt hright)
          (hrows.trans_lt htop) hr hc hhas
      exact hcell
  · intro Near hheld r c o ho hne
    rw [cell?_fill hfront, Option.map_eq_some_iff] at ho
    obtain ⟨old, hold, hnew⟩ := ho
    split_ifs at hnew with hhas
    · obtain ⟨⟨hbottom, hr⟩, hleft, hc⟩ := strip_has.mp hhas
      refine ⟨a', Or.inl rfl, hstrip.trans ?_⟩
      exact h.regionBox_covers hleft (by omega) hc hright hbottom (by omega) hr htop
    · subst hnew
      obtain ⟨b, rfl | hb, hcell⟩ := hheld r c old hold hne
      · exact ⟨a', Or.inl rfl, hcovers.trans hcell⟩
      · exact ⟨b, Or.inr hb, hcell⟩

/-! ## Strip after strip -/

section Loops

variable (region : Int → Int → Region) (boxes : Nat → Box Rat)

/-- A box grows towards lower indices if every strip lets it grow by one, down to a strip that is
not free. -/
lemma growDown_grows (h : g.Shaped) (first : Nat)
    (hstep : ∀ (g' : Grid Rat) (k : Nat), Taken g g' → k < first →
      g'.isFree (region k (k + 1)) = true →
      Grows g' (boxes (k + 1)) (g'.fill (region k (k + 1)) owner) (boxes k)) :
    ∃ k g', growDown region owner first g = (k, g') ∧ k ≤ first ∧
      Grows g (boxes first) g' (boxes k) ∧
      ∀ m : Nat, k = m + 1 → g'.isFree (region m (m + 1)) = false := by
  induction first generalizing g with
  | zero => exact ⟨0, g, rfl, le_rfl, Grows.refl h _, fun m hm => absurd hm m.succ_ne_zero.symm⟩
  | succ first ih =>
      rw [growDown]
      split_ifs with hfree
      · have hone := hstep g first (Taken.refl h) first.lt_succ_self hfree
        obtain ⟨k, g', hrun, hk, hrest, hstop⟩ := ih hone.taken.shaped fun g' k htaken hk =>
          hstep g' k (hone.taken.trans htaken) (Nat.lt_succ_of_lt hk)
        exact ⟨k, g', hrun, Nat.le_succ_of_le hk, hone.trans hrest, hstop⟩
      · refine ⟨first + 1, g, rfl, le_rfl, Grows.refl h _, fun m hm => ?_⟩
        rwa [← Nat.succ.inj hm, ← Bool.not_eq_true]

/-- A box grows towards higher indices if every strip lets it grow by one, up to a strip that is not
free. -/
lemma growUp_grows (h : g.Shaped) (room last : Nat)
    (hstep : ∀ (g' : Grid Rat) (k : Nat), Taken g g' → last ≤ k → k < last + room →
      g'.isFree (region k (k + 1)) = true →
      Grows g' (boxes k) (g'.fill (region k (k + 1)) owner) (boxes (k + 1))) :
    ∃ k g', growUp region owner room last g = (k, g') ∧ last ≤ k ∧ k ≤ last + room ∧
      Grows g (boxes last) g' (boxes k) ∧
      (k < last + room → g'.isFree (region k (k + 1)) = false) := by
  induction room generalizing g last with
  | zero =>
      exact ⟨last, g, rfl, le_rfl, le_rfl, Grows.refl h _, fun hlt => absurd hlt (lt_irrefl last)⟩
  | succ room ih =>
      rw [growUp]
      split_ifs with hfree
      · have hone := hstep g last (Taken.refl h) le_rfl (by omega) hfree
        obtain ⟨k, g', hrun, hlast, hroom, hrest, hstop⟩ := ih hone.taken.shaped (last + 1)
          fun g' k htaken hlast hk => hstep g' k (hone.taken.trans htaken) (by omega) (by omega)
        refine ⟨k, g', hrun, by omega, by omega, hone.trans hrest, ?_⟩
        intro hlt
        exact hstop (by omega)
      · refine ⟨last, g, rfl, le_rfl, Nat.le_add_right _ _, Grows.refl h _, fun _ => ?_⟩
        rwa [← Bool.not_eq_true]

/-- Growth in both directions along an axis, with the boxes between two lines each. -/
lemma growBoth_grows (boxes : Nat → Nat → Box Rat) (h : g.Shaped) (first last count : Nat)
    (room : Grid Rat → Nat) (hroom : ∀ g', Taken g g' → last + room g' + 1 = count)
    (hdown : ∀ (g' : Grid Rat) (k : Nat), Taken g g' → k < first →
      g'.isFree (region k (k + 1)) = true →
      Grows g' (boxes (k + 1) last) (g'.fill (region k (k + 1)) owner) (boxes k last))
    (hup : ∀ (g' : Grid Rat) (j k : Nat), Taken g g' → j ≤ first → last ≤ k → k + 1 < count →
      g'.isFree (region k (k + 1)) = true →
      Grows g' (boxes j k) (g'.fill (region k (k + 1)) owner) (boxes j (k + 1))) :
    ∃ j k g₁ g₂, growDown region owner first g = (j, g₁) ∧
      growUp region owner (room g₁) last g₁ = (k, g₂) ∧ (j ≤ first ∧ last ≤ k ∧ k < count) ∧
      Grows g (boxes first last) g₁ (boxes j last) ∧ Grows g₁ (boxes j last) g₂ (boxes j k) ∧
      (∀ m : Nat, j = m + 1 → g₁.isFree (region m (m + 1)) = false) ∧
      (k + 1 < count → g₂.isFree (region k (k + 1)) = false) := by
  obtain ⟨j, g₁, hrun, hj, hgrown, hstop⟩ :=
    growDown_grows region (fun k => boxes k last) h first hdown
  have hlast := hroom g₁ hgrown.taken
  obtain ⟨k, g₂, hrun', hk, hle, hgrown', hstop'⟩ :=
    growUp_grows region (boxes j) hgrown.taken.shaped (room g₁) last fun g' k htaken hk hlt =>
      hup g' j k (hgrown.taken.trans htaken) hj hk (by omega)
  refine ⟨j, k, g₁, g₂, hrun, hrun', ⟨hj, hk, by omega⟩, hgrown, hgrown', hstop, ?_⟩
  intro hlt
  exact hstop' (by omega)

end Loops

/-! ## The four directions -/

section Directions

variable (h : g.Shaped) (howner : owner ≠ .free) (hright : right < g.xLines.length)
  (htop : top < g.yLines.length)

include h howner hright htop

lemma grows_left {k : Nat} (hk : k < right) (hrows : bottom ≤ top)
    (hfree : g.isFree (strip k (k + 1) bottom top) = true) :
    Grows g (g.regionBox (k + 1) right bottom top) (g.fill (strip k (k + 1) bottom top) owner)
      (g.regionBox k right bottom top) := by
  refine Grows.fill h howner k.le_succ (by omega) hrows htop hfree
    ⟨line_mono h.xSorted k.le_succ (by omega), le_rfl, le_rfl, le_rfl⟩
    (h.regionBox_covers le_rfl (by omega) hk hright le_rfl (by omega) le_rfl htop) fun b => ?_
  rw [regionBox_overlap_columns h k.le_succ hk hright, add_comm]

lemma grows_right {k : Nat} (hk : k < right) (hleft : left ≤ k) (hrows : bottom ≤ top)
    (hfree : g.isFree (strip k (k + 1) bottom top) = true) :
    Grows g (g.regionBox left k bottom top) (g.fill (strip k (k + 1) bottom top) owner)
      (g.regionBox left (k + 1) bottom top) :=
  Grows.fill h howner k.le_succ (by omega) hrows htop hfree
    ⟨le_rfl, le_rfl, line_mono h.xSorted k.le_succ (by omega), le_rfl⟩
    (h.regionBox_covers hleft (by omega) le_rfl (by omega) le_rfl (by omega) le_rfl htop)
    (regionBox_overlap_columns h hleft k.le_succ (by omega) bottom top)

lemma grows_down {k : Nat} (hk : k < top) (hcolumns : left ≤ right)
    (hfree : g.isFree (strip left right k (k + 1)) = true) :
    Grows g (g.regionBox left right (k + 1) top) (g.fill (strip left right k (k + 1)) owner)
      (g.regionBox left right k top) := by
  refine Grows.fill h howner hcolumns hright k.le_succ (by omega) hfree
    ⟨le_rfl, line_mono h.ySorted k.le_succ (by omega), le_rfl, le_rfl⟩
    (h.regionBox_covers le_rfl (by omega) le_rfl hright le_rfl (by omega) hk htop) fun b => ?_
  rw [regionBox_overlap_rows h k.le_succ hk htop, add_comm]

lemma grows_up {k : Nat} (hk : k < top) (hbottom : bottom ≤ k) (hcolumns : left ≤ right)
    (hfree : g.isFree (strip left right k (k + 1)) = true) :
    Grows g (g.regionBox left right bottom k) (g.fill (strip left right k (k + 1)) owner)
      (g.regionBox left right bottom (k + 1)) :=
  Grows.fill h howner hcolumns hright k.le_succ (by omega) hfree
    ⟨le_rfl, le_rfl, le_rfl, line_mono h.ySorted k.le_succ (by omega)⟩
    (h.regionBox_covers le_rfl (by omega) le_rfl hright hbottom (by omega) le_rfl (by omega))
    (regionBox_overlap_rows h hbottom k.le_succ (by omega) left right)

end Directions

/-! ## Where growth ends -/

/-- The box of all cells. -/
def outline (g : Grid Rat) : Box Rat := g.regionBox 0 (g.xLines.length - 1) 0 (g.yLines.length - 1)

lemma Taken.outline (h : Taken g g') : g'.outline = g.outline := by
  rw [Grid.outline, h.regionBox, h.xLines, h.yLines, Grid.outline]

section Stops

variable {Near : Box Rat → Prop} {r c : Nat}

/-- In a strip that is not free, one of the cells has an occupant. -/
lemma exists_occupied (hstop : g.isFree (strip left right bottom top) = false) :
    ∃ r c o, g.cell? r c = some o ∧ o ≠ .free ∧ (bottom ≤ r ∧ r < top) ∧ left ≤ c ∧ c < right := by
  rw [← Bool.not_eq_true, isFree_iff strip_front] at hstop
  push Not at hstop
  obtain ⟨r, c, o, ho, hhas, hne⟩ := hstop
  exact ⟨r, c, o, ho, hne, strip_has.mp hhas⟩

/-- What reaches over one of the cells of a span shares a part of the span. -/
lemma shared_pos_of_cell {lines : List Rat} (hsorted : lines.Pairwise (· < ·)) {first last k : Nat}
    (hfirst : first ≤ k) (hk : k < last) (hlast : last < lines.length) {lo hi : Rat}
    (hlo : lo ≤ lines.getD k 0) (hhi : lines.getD (k + 1) 0 ≤ hi) :
    0 < Box.shared (lines.getD first 0) (lines.getD last 0) lo hi := by
  have hcell := line_strictMono hsorted k.lt_succ_self (by omega)
  calc 0 < lines.getD (k + 1) 0 - lines.getD k 0 := sub_pos.mpr hcell
    _ = Box.shared (lines.getD k 0) (lines.getD (k + 1) 0) lo hi :=
        (Box.shared_eq_of_inside hlo hcell.le hhi).symm
    _ ≤ Box.shared (lines.getD first 0) (lines.getD last 0) lo hi :=
        Box.shared_mono (line_mono hsorted hfirst (by omega)) (line_mono hsorted hk hlast) _ _

variable (h : g.Shaped) (hheld : g.HeldBy fun b => b = g.regionBox left right bottom top ∨ Near b)
  (hright : right < g.xLines.length) (htop : top < g.yLines.length)

include h hheld hright htop

lemma HeldBy.stopped_left (hle : left ≤ right)
    (hstop : ∀ m, left = m + 1 → g.isFree (strip m (m + 1) bottom top) = false) :
    (g.regionBox left right bottom top).Stopped g.outline Near .left := by
  cases left with
  | zero => exact Or.inl rfl
  | succ m =>
      obtain ⟨r, c, o, ho, hne, ⟨hbottom, hr⟩, hm, hc⟩ := exists_occupied (hstop m rfl)
      obtain rfl : c = m := by omega
      have hline := line_strictMono h.xSorted c.lt_succ_self (by omega)
      obtain ⟨b, rfl | hb, hcovers⟩ := hheld r c o ho hne
      · exact absurd hcovers.xMin hline.not_ge
      · exact Or.inr ⟨b, hb, ⟨hcovers.xMin.trans_lt hline, hcovers.xMax⟩,
          shared_pos_of_cell h.ySorted hbottom hr htop hcovers.yMin hcovers.yMax⟩

lemma HeldBy.stopped_right
    (hstop : right + 1 < g.xLines.length → g.isFree (strip right (right + 1) bottom top) = false) :
    (g.regionBox left right bottom top).Stopped g.outline Near .right := by
  rcases Nat.lt_or_ge (right + 1) g.xLines.length with hlast | hlast
  · obtain ⟨r, c, o, ho, hne, ⟨hbottom, hr⟩, hm, hc⟩ := exists_occupied (hstop hlast)
    obtain rfl : c = right := by omega
    have hline := line_strictMono h.xSorted c.lt_succ_self hlast
    obtain ⟨b, rfl | hb, hcovers⟩ := hheld r c o ho hne
    · exact absurd hcovers.xMax hline.not_ge
    · exact Or.inr ⟨b, hb, ⟨hcovers.xMin, hline.trans_le hcovers.xMax⟩,
        shared_pos_of_cell h.ySorted hbottom hr htop hcovers.yMin hcovers.yMax⟩
  · obtain rfl : right = g.xLines.length - 1 := by omega
    exact Or.inl rfl

lemma HeldBy.stopped_bottom (hle : bottom ≤ top)
    (hstop : ∀ m, bottom = m + 1 → g.isFree (strip left right m (m + 1)) = false) :
    (g.regionBox left right bottom top).Stopped g.outline Near .bottom := by
  cases bottom with
  | zero => exact Or.inl rfl
  | succ m =>
      obtain ⟨r, c, o, ho, hne, ⟨hm, hr⟩, hleft, hc⟩ := exists_occupied (hstop m rfl)
      obtain rfl : r = m := by omega
      have hline := line_strictMono h.ySorted r.lt_succ_self (by omega)
      obtain ⟨b, rfl | hb, hcovers⟩ := hheld r c o ho hne
      · exact absurd hcovers.yMin hline.not_ge
      · exact Or.inr ⟨b, hb, ⟨hcovers.yMin.trans_lt hline, hcovers.yMax⟩,
          shared_pos_of_cell h.xSorted hleft hc hright hcovers.xMin hcovers.xMax⟩

lemma HeldBy.stopped_top
    (hstop : top + 1 < g.yLines.length → g.isFree (strip left right top (top + 1)) = false) :
    (g.regionBox left right bottom top).Stopped g.outline Near .top := by
  rcases Nat.lt_or_ge (top + 1) g.yLines.length with hlast | hlast
  · obtain ⟨r, c, o, ho, hne, ⟨hm, hr⟩, hleft, hc⟩ := exists_occupied (hstop hlast)
    obtain rfl : r = top := by omega
    have hline := line_strictMono h.ySorted r.lt_succ_self hlast
    obtain ⟨b, rfl | hb, hcovers⟩ := hheld r c o ho hne
    · exact absurd hcovers.yMax hline.not_ge
    · exact Or.inr ⟨b, hb, ⟨hcovers.yMin, hline.trans_le hcovers.yMax⟩,
        shared_pos_of_cell h.xSorted hleft hc hright hcovers.xMin hcovers.xMax⟩
  · obtain rfl : top = g.yLines.length - 1 := by omega
    exact Or.inl rfl

end Stops

/-- A box that grows towards one side and then towards the other one is stopped at both, if each
growth goes on until something stops it: the first side stays where the first growth has left it. -/
lemma Grows.stopped_both {Near : Box Rat → Prop} {low high : Side} (hgrown : Grows g a g' a')
    (hgrown' : Grows g' a' g'' a'') (hedge : a''.edge low = a'.edge low)
    (hlow : (g'.HeldBy fun b => b = a' ∨ Near b) → a'.Stopped g'.outline Near low)
    (hhigh : (g''.HeldBy fun b => b = a'' ∨ Near b) → a''.Stopped g''.outline Near high)
    (hheld : g.HeldBy fun b => b = a ∨ Near b) :
    a''.Stopped g.outline Near low ∧ a''.Stopped g.outline Near high := by
  have hheld' := hgrown.held Near hheld
  have hstopped := hlow hheld'
  have hstopped' := hhigh (hgrown'.held Near hheld')
  rw [hgrown.taken.outline] at hstopped
  rw [(hgrown.taken.trans hgrown'.taken).outline] at hstopped'
  exact ⟨hstopped.grow hgrown'.covers hedge, hstopped'⟩

/-! ## Rows and columns of strips -/

/-- Growth along the rows, as far as whole strips of columns are free.  Then the box is stopped at
the left and at the right. -/
lemma growColumns_grows (h : g.Shaped) (howner : owner ≠ .free) (hcolumns : left ≤ right)
    (hright : right < g.xLines.length) (hrows : bottom ≤ top) (htop : top < g.yLines.length) :
    ∃ l r g₁ g₂, growDown (fun c d => ⟨((bottom : Int), (top : Int)), (c, d)⟩) owner left g
        = (l, g₁) ∧
      growUp (fun c d => ⟨((bottom : Int), (top : Int)), (c, d)⟩) owner
          (g₁.columnCount - right).toNat right g₁
        = (r, g₂) ∧
      (l ≤ left ∧ right ≤ r ∧ r < g.xLines.length) ∧
      Grows g (g.regionBox left right bottom top) g₂ (g.regionBox l r bottom top) ∧
      ∀ Near, (g.HeldBy fun b => b = g.regionBox left right bottom top ∨ Near b) →
        (g.regionBox l r bottom top).Stopped g.outline Near .left ∧
        (g.regionBox l r bottom top).Stopped g.outline Near .right := by
  obtain ⟨l, r, g₁, g₂, hdown, hup, ⟨hl, hr, hlast⟩, hgrown, hgrown', hfirst, hbehind⟩ :=
    growBoth_grows (fun c d => ⟨((bottom : Int), (top : Int)), (c, d)⟩)
      (fun l r => g.regionBox l r bottom top) h left right g.xLines.length
      (fun g' => (g'.columnCount - right).toNat)
      (fun g' htaken => by
        rw [columnCount, htaken.xLines]
        omega)
      (fun g' k htaken hk hfree => by
        rw [← htaken.regionBox, ← htaken.regionBox]
        exact grows_left htaken.shaped howner (htaken.columns_lt hright) (htaken.rows_lt htop)
          (hk.trans_le hcolumns) hrows hfree)
      fun g' l k htaken hl hk hlt hfree => by
        rw [← htaken.regionBox, ← htaken.regionBox]
        exact grows_right htaken.shaped howner (htaken.columns_lt hlt) (htaken.rows_lt htop)
          k.lt_succ_self (by omega) hrows hfree
  have htaken := hgrown.taken
  have htaken' := htaken.trans hgrown'.taken
  rw [← htaken'.xLines] at hbehind
  refine ⟨l, r, g₁, g₂, hdown, hup, ⟨hl, hr, hlast⟩, hgrown.trans hgrown', ?_⟩
  intro Near
  refine hgrown.stopped_both hgrown' rfl (fun hheld => ?_) fun hheld => ?_
  · rw [← htaken.regionBox] at hheld ⊢
    exact hheld.stopped_left htaken.shaped (htaken.columns_lt hright) (htaken.rows_lt htop)
      (hl.trans hcolumns) hfirst
  · rw [← htaken'.regionBox] at hheld ⊢
    exact hheld.stopped_right htaken'.shaped (htaken'.columns_lt hlast) (htaken'.rows_lt htop)
      hbehind

/-- Growth along the columns, as far as whole strips of rows are free.  Then the box is stopped at
the bottom and at the top. -/
lemma growRows_grows (h : g.Shaped) (howner : owner ≠ .free) (hcolumns : left ≤ right)
    (hright : right < g.xLines.length) (hrows : bottom ≤ top) (htop : top < g.yLines.length) :
    ∃ u v g₁ g₂, growDown (fun c d => ⟨(c, d), ((left : Int), (right : Int))⟩) owner bottom g
        = (u, g₁) ∧
      growUp (fun c d => ⟨(c, d), ((left : Int), (right : Int))⟩) owner
          (g₁.rowCount - top).toNat top g₁
        = (v, g₂) ∧
      (u ≤ bottom ∧ top ≤ v ∧ v < g.yLines.length) ∧
      Grows g (g.regionBox left right bottom top) g₂ (g.regionBox left right u v) ∧
      ∀ Near, (g.HeldBy fun b => b = g.regionBox left right bottom top ∨ Near b) →
        (g.regionBox left right u v).Stopped g.outline Near .bottom ∧
        (g.regionBox left right u v).Stopped g.outline Near .top := by
  obtain ⟨u, v, g₁, g₂, hdown, hup, ⟨hu, hv, hlast⟩, hgrown, hgrown', hfirst, hbehind⟩ :=
    growBoth_grows (fun c d => ⟨(c, d), ((left : Int), (right : Int))⟩)
      (fun u v => g.regionBox left right u v) h bottom top g.yLines.length
      (fun g' => (g'.rowCount - top).toNat)
      (fun g' htaken => by
        rw [rowCount, htaken.yLines]
        omega)
      (fun g' k htaken hk hfree => by
        rw [← htaken.regionBox, ← htaken.regionBox]
        exact grows_down htaken.shaped howner (htaken.columns_lt hright) (htaken.rows_lt htop)
          (hk.trans_le hrows) hcolumns hfree)
      fun g' u k htaken hu hk hlt hfree => by
        rw [← htaken.regionBox, ← htaken.regionBox]
        exact grows_up htaken.shaped howner (htaken.columns_lt hright) (htaken.rows_lt hlt)
          k.lt_succ_self (by omega) hcolumns hfree
  have htaken := hgrown.taken
  have htaken' := htaken.trans hgrown'.taken
  rw [← htaken'.yLines] at hbehind
  refine ⟨u, v, g₁, g₂, hdown, hup, ⟨hu, hv, hlast⟩, hgrown.trans hgrown', ?_⟩
  intro Near
  refine hgrown.stopped_both hgrown' rfl (fun hheld => ?_) fun hheld => ?_
  · rw [← htaken.regionBox] at hheld ⊢
    exact hheld.stopped_bottom htaken.shaped (htaken.columns_lt hright) (htaken.rows_lt htop)
      (hu.trans hrows) hfirst
  · rw [← htaken'.regionBox] at hheld ⊢
    exact hheld.stopped_top htaken'.shaped (htaken'.columns_lt hright) (htaken'.rows_lt hlast)
      hbehind

/-! ## One block -/

/-- **A block that lies on the lines grows to other lines.**  Then none of its sides can move on:
each lies on the edge of the outline, or has one of the other boxes against it that hold cells. -/
theorem growBlock_grows (h : g.Shaped) {b : Block Rat}
    (hspan : g.span b.box = (((left : Int), (right : Int)), ((bottom : Int), (top : Int))))
    (hcolumns : left < right) (hright : right < g.xLines.length) (hrows : bottom < top)
    (htop : top < g.yLines.length) (hbox : g.regionBox left right bottom top = b.box) (i : Nat) :
    ∃ l r u v b' g', growBlock i b g = (b', g') ∧ r < g.xLines.length ∧ v < g.yLines.length ∧
      l ≤ r ∧ u ≤ v ∧ (∃ x y width height, b' = b.stretch x y width height) ∧
      b'.box = g.regionBox l r u v ∧ Grows g b.box g' b'.box ∧
      ∀ Near, (g.HeldBy fun r => r = b.box ∨ Near r) →
      ∀ side, b'.box.Stopped g.outline Near side := by
  have howner : Cell.owned i ≠ .free := Cell.noConfusion
  obtain ⟨l, r, g₁, g₂, hdown, hup, ⟨hl, hr, hrlast⟩, hgrown, hstopped⟩ :=
    growColumns_grows h howner hcolumns.le hright hrows.le htop
  have htaken := hgrown.taken
  -- the strips of rows are as wide as the columns have become, and the grid is the one they have
  -- left
  obtain ⟨u, v, g₃, g₄, hdown', hup', ⟨hu, hv, hvlast⟩, hgrown', hstopped'⟩ :=
    growRows_grows htaken.shaped howner (show l ≤ r by omega) (htaken.columns_lt hrlast) hrows.le
      (htaken.rows_lt htop)
  simp only [htaken.regionBox, htaken.outline] at hgrown' hstopped'
  have hall := hgrown.trans hgrown'
  have hrun : growBlock i b g = (b.stretch (g₄.xLines.getD l 0) (g₄.yLines.getD u 0)
      (g₄.xLines.getD r 0 - g₄.xLines.getD l 0) (g₄.yLines.getD v 0 - g₄.yLines.getD u 0), g₄) := by
    rw [growBlock, hspan]
    dsimp only
    rw [if_neg (by omega), Int.toNat_natCast, hdown]
    dsimp only
    rw [Int.toNat_natCast, hup]
    dsimp only
    rw [Int.toNat_natCast, hdown']
    dsimp only
    rw [Int.toNat_natCast, hup']
  have hbox' : (b.stretch (g₄.xLines.getD l 0) (g₄.yLines.getD u 0)
      (g₄.xLines.getD r 0 - g₄.xLines.getD l 0) (g₄.yLines.getD v 0 - g₄.yLines.getD u 0)).box
        = g.regionBox l r u v := by
    rw [← hall.taken.regionBox]
    simp only [Block.box, Block.stretch, Block.xMax, Block.yMax, regionBox, add_sub_cancel]
  rw [hbox, ← hbox'] at hall
  rw [htaken.yLines] at hvlast
  refine ⟨l, r, u, v, _, g₄, hrun, hrlast, hvlast, by omega, by omega, ⟨_, _, _, _, rfl⟩, hbox',
    hall, ?_⟩
  intro Near hheld side
  rw [← hbox] at hheld
  rw [hbox']
  -- what has stopped the columns still does once the rows have grown
  obtain ⟨hleft, hright'⟩ := hstopped Near hheld
  obtain ⟨hbottom, htop'⟩ := hstopped' Near (hgrown.held Near hheld)
  cases side with
  | left => exact hleft.grow hgrown'.covers rfl
  | right => exact hright'.grow hgrown'.covers rfl
  | bottom => exact hbottom
  | top => exact htop'

end Grid

end BlockPlan
