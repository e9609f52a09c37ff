import BlockPlan.Proofs.Cells.Lines
import BlockPlan.Proofs.Design.Overlap
import BlockPlan.Proofs.Sequence.Slot

/-!
# Cells and what lies on them

The cells of a grid are looked up by row and column, and every one of them has a box.  A box that is
marked on the grid leaves no cell free that it reaches into, so that the free cells are clear of all
boxes that the grid was made for.

* `cell?`, `cellBox`, `Region.Has` — the occupant and the box of a cell, and the cells of a region.
* `Shaped` — a grid with a cell for any two lines that follow each other.
* `cell?_mapRegion`, `isFree_iff` — changing and testing the cells of a region.
* `Clear`, `Taken` — the free cells share no area with a box; a grid after some of its cells were
  taken.
* **`regionBox_overlap_eq_zero`** — cells that share no area with a box do not share any together.
* **`ofLayout_clear`** — the free cells of a layout are clear of its blocks and of its blockages.
-/

namespace BlockPlan

namespace Grid

variable {g : Grid Rat} {region : Grid.Region} {r c : Nat} {b : Box Rat}

/-! ## Looking up cells -/

/-- The occupant of the cell in a row and a column. -/
def cell? (g : Grid Rat) (r c : Nat) : Option Cell := g.cells[r]?.bind fun row => row[c]?

/-- The cells that belong to a region. -/
def Region.Has (region : Region) (r c : Nat) : Prop :=
  (region.rows.1 ≤ r ∧ (r : Int) < region.rows.2) ∧ region.columns.1 ≤ c ∧
    (c : Int) < region.columns.2

instance (region : Region) (r c : Nat) : Decidable (region.Has r c) :=
  inferInstanceAs (Decidable (_ ∧ _))

/-- Regions whose bounds count from the front. -/
structure Region.Front (region : Region) : Prop where
  rows : 0 ≤ region.rows.1 ∧ 0 ≤ region.rows.2
  columns : 0 ≤ region.columns.1 ∧ 0 ≤ region.columns.2

/-- A grid with ascending lines, and with a cell for any two of them that follow each other. -/
structure Shaped (g : Grid Rat) : Prop where
  xSorted : g.xLines.Pairwise (· < ·)
  ySorted : g.yLines.Pairwise (· < ·)
  columns_ne : g.xLines ≠ []
  rows : g.cells.length + 1 = g.yLines.length
  columns : ∀ row ∈ g.cells, row.length + 1 = g.xLines.length

lemma cell?_eq_some_iff {cell : Cell} :
    g.cell? r c = some cell ↔ ∃ row, g.cells[r]? = some row ∧ row[c]? = some cell := by
  rw [cell?, Option.bind_eq_some_iff]

/-- A cell lies between two columns and two rows. -/
lemma Shaped.lt_of_cell? (h : g.Shaped) {cell : Cell} (hcell : g.cell? r c = some cell) :
    r + 1 < g.yLines.length ∧ c + 1 < g.xLines.length := by
  obtain ⟨row, hrow, hc⟩ := cell?_eq_some_iff.mp hcell
  have hr := (List.getElem?_eq_some_iff.mp hrow).1
  have hc := (List.getElem?_eq_some_iff.mp hc).1
  have hlength := h.columns row (List.mem_of_getElem? hrow)
  have hrows := h.rows
  omega

/-- Between two columns and two rows there is a cell. -/
lemma Shaped.exists_cell (h : g.Shaped) (hr : r + 1 < g.yLines.length)
    (hc : c + 1 < g.xLines.length) : ∃ cell, g.cell? r c = some cell := by
  have hrows := h.rows
  have hlt : r < g.cells.length := by omega
  have hlength := h.columns g.cells[r] (List.getElem_mem hlt)
  have hlt' : c < g.cells[r].length := by omega
  exact ⟨_, cell?_eq_some_iff.mpr
    ⟨_, List.getElem?_eq_getElem hlt, List.getElem?_eq_getElem hlt'⟩⟩

/-- **Changing the cells of a region changes just these.** -/
theorem cell?_mapRegion (hregion : region.Front) (f : Cell → Cell) :
    (g.mapRegion f region).cell? r c
      = (g.cell? r c).map fun cell => if region.Has r c then f cell else cell := by
  rw [cell?, cell?, mapRegion, List.getElem?_mapIdx]
  cases hrow : g.cells[r]? with
  | none => rfl
  | some row =>
      have hr := (List.getElem?_eq_some_iff.mp hrow).1
      rw [Option.map_some, Option.bind_some, Option.bind_some]
      by_cases hbetween : Slot.between g.cells.length region.rows.1 region.rows.2 r = true
      · rw [if_pos hbetween, List.getElem?_mapIdx]
        cases hcell : row[c]? with
        | none => rfl
        | some cell =>
            have hc := (List.getElem?_eq_some_iff.mp hcell).1
            have hhas : Slot.between row.length region.columns.1 region.columns.2 c = true ↔
                region.Has r c := by
              rw [Slot.between_iff hregion.columns.1 hregion.columns.2 hc, Region.Has]
              exact (and_iff_right
                ((Slot.between_iff hregion.rows.1 hregion.rows.2 hr).mp hbetween)).symm
            rw [Option.map_some, Option.map_some]
            simp only [hhas]
      · have hhas : ¬ region.Has r c := fun h =>
          hbetween ((Slot.between_iff hregion.rows.1 hregion.rows.2 hr).mpr h.1)
        rw [if_neg hbetween]
        simp only [if_neg hhas, Option.map_id']

lemma cell?_fill (hregion : region.Front) (cell : Cell) :
    (g.fill region cell).cell? r c
      = (g.cell? r c).map fun old => if region.Has r c then cell else old :=
  cell?_mapRegion hregion _

lemma length_cells_mapRegion (f : Cell → Cell) (region : Region) :
    (g.mapRegion f region).cells.length = g.cells.length := List.length_mapIdx

/-- Changing the cells of a region leaves every row its length. -/
lemma exists_row_of_mapRegion {f : Cell → Cell} {row : List Cell}
    (hrow : row ∈ (g.mapRegion f region).cells) : ∃ old ∈ g.cells, row.length = old.length := by
  obtain ⟨i, hi⟩ := List.mem_iff_getElem?.mp hrow
  rw [mapRegion, List.getElem?_mapIdx, Option.map_eq_some_iff] at hi
  obtain ⟨old, hold, rfl⟩ := hi
  refine ⟨old, List.mem_of_getElem? hold, ?_⟩
  split_ifs
  · rw [List.length_mapIdx]
  · rfl

lemma mapRegion_shaped (h : g.Shaped) (f : Cell → Cell) (region : Region) :
    (g.mapRegion f region).Shaped := by
  refine ⟨h.xSorted, h.ySorted, h.columns_ne, ?_, fun row hrow => ?_⟩
  · rw [length_cells_mapRegion]
    exact h.rows
  · obtain ⟨old, hold, hlength⟩ := exists_row_of_mapRegion hrow
    exact hlength ▸ h.columns old hold

/-- **A region is free exactly if all its cells are.** -/
theorem isFree_iff (hregion : region.Front) : g.isFree region = true ↔
    ∀ r c cell, g.cell? r c = some cell → region.Has r c → cell = .free := by
  simp only [isFree, List.all_eq_true, Prod.forall, List.mk_mem_zipIdx_iff_getElem?,
    Bool.or_eq_true, Bool.not_eq_true', beq_iff_eq]
  constructor
  · intro h r c cell hcell hhas
    obtain ⟨row, hrow, hc⟩ := cell?_eq_some_iff.mp hcell
    have hr := (List.getElem?_eq_some_iff.mp hrow).1
    rcases h row r hrow with hout | hall
    · rw [← Bool.not_eq_true, Slot.between_iff hregion.rows.1 hregion.rows.2 hr] at hout
      exact absurd hhas.1 hout
    · rcases hall cell c hc with hout | hfree
      · rw [← Bool.not_eq_true, Slot.between_iff hregion.columns.1 hregion.columns.2
          (List.getElem?_eq_some_iff.mp hc).1] at hout
        exact absurd hhas.2 hout
      · exact hfree
  · intro h row r hrow
    have hr := (List.getElem?_eq_some_iff.mp hrow).1
    by_cases hrows : region.rows.1 ≤ r ∧ (r : Int) < region.rows.2
    · refine Or.inr fun cell c hc => ?_
      by_cases hcolumns : region.columns.1 ≤ c ∧ (c : Int) < region.columns.2
      · exact Or.inr (h r c cell (cell?_eq_some_iff.mpr ⟨row, hrow, hc⟩) ⟨hrows, hcolumns⟩)
      · rw [← Bool.not_eq_true, Slot.between_iff hregion.columns.1 hregion.columns.2
          (List.getElem?_eq_some_iff.mp hc).1]
        exact Or.inl hcolumns
    · rw [← Bool.not_eq_true, Slot.between_iff hregion.rows.1 hregion.rows.2 hr]
      exact Or.inl hrows

/-! ## The boxes of cells -/

/-- The box between two columns and two rows. -/
def regionBox (g : Grid Rat) (left right bottom top : Nat) : Box Rat :=
  ⟨g.xLines.getD left 0, g.yLines.getD bottom 0, g.xLines.getD right 0, g.yLines.getD top 0⟩

/-- The box of a cell. -/
def cellBox (g : Grid Rat) (r c : Nat) : Box Rat := g.regionBox c (c + 1) r (r + 1)

section Lines

variable {lines : List Rat} (hsorted : lines.Pairwise (· < ·))

include hsorted

lemma line_strictMono {i j : Nat} (hlt : i < j) (hj : j < lines.length) :
    lines.getD i 0 < lines.getD j 0 := by
  rw [List.getD_eq_getElem _ _ (hlt.trans hj), List.getD_eq_getElem _ _ hj]
  exact List.pairwise_iff_getElem.mp hsorted i j (hlt.trans hj) hj hlt

lemma line_mono {i j : Nat} (hle : i ≤ j) (hj : j < lines.length) :
    lines.getD i 0 ≤ lines.getD j 0 := by
  rcases hle.eq_or_lt with rfl | hlt
  · exact le_rfl
  · exact (line_strictMono hsorted hlt hj).le

/-- What a span from line to line shares, one of the spans between two neighbouring lines shares. -/
lemma exists_shared_pos {first last : Nat} {lo hi : Rat} (hle : first ≤ last)
    (hlast : last < lines.length)
    (h : 0 < Box.shared (lines.getD first 0) (lines.getD last 0) lo hi) :
    ∃ k, first ≤ k ∧ k < last ∧ 0 < Box.shared (lines.getD k 0) (lines.getD (k + 1) 0) lo hi := by
  induction last, hle using Nat.le_induction with
  | base =>
      rw [Box.shared_eq_zero_of_ge le_rfl] at h
      exact absurd h (lt_irrefl 0)
  | succ last hle ih =>
      rw [← Box.shared_add (line_mono hsorted hle (by omega))
          (line_mono hsorted last.le_succ hlast)] at h
      rcases (Box.shared_nonneg (lines.getD last 0) (lines.getD (last + 1) 0) lo hi).eq_or_lt
        with hzero | hpos
      · rw [← hzero, add_zero] at h
        obtain ⟨k, hfirst, hlt, hk⟩ := ih (by omega) h
        exact ⟨k, hfirst, by omega, hk⟩
      · exact ⟨last, hle, by omega, hpos⟩

end Lines

/-- **Cells that share no area with a box do not share any together.** -/
theorem regionBox_overlap_eq_zero (h : g.Shaped) {left right bottom top : Nat}
    (hcolumns : left ≤ right) (hright : right < g.xLines.length) (hrows : bottom ≤ top)
    (htop : top < g.yLines.length)
    (hcells : ∀ r c, bottom ≤ r → r < top → left ≤ c → c < right → (g.cellBox r c).overlap b = 0) :
    (g.regionBox left right bottom top).overlap b = 0 := by
  by_contra hne
  rw [Box.overlap_eq] at hne
  obtain ⟨hx, hy⟩ := mul_ne_zero_iff.mp hne
  obtain ⟨c, hleft, hc, hcx⟩ := exists_shared_pos h.xSorted hcolumns hright
    (lt_of_le_of_ne (Box.shared_nonneg _ _ _ _) hx.symm)
  obtain ⟨r, hbottom, hr, hry⟩ := exists_shared_pos h.ySorted hrows htop
    (lt_of_le_of_ne (Box.shared_nonneg _ _ _ _) hy.symm)
  have hcell := hcells r c hbottom hr hleft hc
  rw [Box.overlap_eq] at hcell
  exact (mul_pos hcx hry).ne' hcell

/-- A span from line to line shares nothing with one between two neighbouring lines outside it. -/
lemma shared_lines_eq_zero {lines : List Rat} (hsorted : lines.Pairwise (· < ·))
    {first last k : Nat} (hfirst : first < lines.length) (hk : k + 1 < lines.length)
    (hout : ¬ (first ≤ k ∧ k < last)) :
    Box.shared (lines.getD first 0) (lines.getD last 0) (lines.getD k 0) (lines.getD (k + 1) 0)
        = 0 := by
  rcases Nat.lt_or_ge k first with hbefore | hge
  · rw [Box.shared_comm]
    exact Box.shared_eq_zero_of_le (line_mono hsorted hbefore hfirst)
  · exact Box.shared_eq_zero_of_le (line_mono hsorted (by omega) (by omega))

/-- A cell outside a region shares no area with it. -/
lemma regionBox_overlap_cellBox (h : g.Shaped) {left right bottom top : Nat}
    (hleft : left < g.xLines.length) (hbottom : bottom < g.yLines.length)
    (hr : r + 1 < g.yLines.length) (hc : c + 1 < g.xLines.length)
    (hout : ¬ ((bottom ≤ r ∧ r < top) ∧ left ≤ c ∧ c < right)) :
    (g.regionBox left right bottom top).overlap (g.cellBox r c) = 0 := by
  rw [Box.overlap_eq]
  rcases not_and_or.mp hout with hrows | hcolumns
  · exact mul_eq_zero_of_right _ (shared_lines_eq_zero h.ySorted hbottom hr hrows)
  · exact mul_eq_zero_of_left (shared_lines_eq_zero h.xSorted hleft hc hcolumns) _

/-- Cells between two columns that are cut apart by a third one. -/
lemma regionBox_overlap_columns (h : g.Shaped) {left mid right : Nat} (hleft : left ≤ mid)
    (hright : mid ≤ right) (hlast : right < g.xLines.length) (bottom top : Nat) (b : Box Rat) :
    (g.regionBox left right bottom top).overlap b
      = (g.regionBox left mid bottom top).overlap b
        + (g.regionBox mid right bottom top).overlap b := by
  simp only [Box.overlap_eq, regionBox]
  rw [← Box.shared_add (line_mono h.xSorted hleft (hright.trans_lt hlast))
    (line_mono h.xSorted hright hlast), add_mul]

/-- Cells between two rows that are cut apart by a third one. -/
lemma regionBox_overlap_rows (h : g.Shaped) {bottom mid top : Nat} (hbottom : bottom ≤ mid)
    (htop : mid ≤ top) (hlast : top < g.yLines.length) (left right : Nat) (b : Box Rat) :
    (g.regionBox left right bottom top).overlap b
      = (g.regionBox left right bottom mid).overlap b
        + (g.regionBox left right mid top).overlap b := by
  simp only [Box.overlap_eq, regionBox]
  rw [← Box.shared_add (line_mono h.ySorted hbottom (htop.trans_lt hlast))
    (line_mono h.ySorted htop hlast), mul_add]

/-! ## Free cells -/

/-- The free cells share no area with a box. -/
def Clear (g : Grid Rat) (b : Box Rat) : Prop :=
  ∀ r c, g.cell? r c = some .free → (g.cellBox r c).overlap b = 0

/-- A grid after some of its cells have been taken. -/
structure Taken (g g' : Grid Rat) : Prop where
  xLines : g'.xLines = g.xLines
  yLines : g'.yLines = g.yLines
  shaped : g'.Shaped
  clear : ∀ b, g.Clear b → g'.Clear b

lemma Taken.regionBox {g' : Grid Rat} (h : Taken g g') (left right bottom top : Nat) :
    g'.regionBox left right bottom top = g.regionBox left right bottom top := by
  rw [Grid.regionBox, Grid.regionBox, h.xLines, h.yLines]

lemma Taken.refl (h : g.Shaped) : Taken g g := ⟨rfl, rfl, h, fun _ => id⟩

lemma Taken.trans {g' g'' : Grid Rat} (h : Taken g g') (h' : Taken g' g'') : Taken g g'' :=
  ⟨h'.xLines.trans h.xLines, h'.yLines.trans h.yLines, h'.shaped,
    fun b hb => h'.clear b (h.clear b hb)⟩

lemma Taken.columns_lt {g' : Grid Rat} (h : Taken g g') {i : Nat} (hi : i < g.xLines.length) :
    i < g'.xLines.length := by
  rwa [h.xLines]

lemma Taken.rows_lt {g' : Grid Rat} (h : Taken g g') {i : Nat} (hi : i < g.yLines.length) :
    i < g'.yLines.length := by
  rwa [h.yLines]

/-- Giving the cells of a region to an occupant takes cells. -/
lemma fill_taken (h : g.Shaped) (hregion : region.Front) {cell : Cell} (hcell : cell ≠ .free) :
    Taken g (g.fill region cell) := by
  refine ⟨rfl, rfl, mapRegion_shaped h _ _, fun b hb r c hfree => ?_⟩
  rw [cell?_fill hregion, Option.map_eq_some_iff] at hfree
  obtain ⟨old, hold, hnew⟩ := hfree
  split_ifs at hnew
  · exact absurd hnew hcell
  · exact hb r c (hnew ▸ hold)

/-- The cells of a box count from the front. -/
lemma span_front (h : g.Shaped) (b : Box Rat) : Region.Front ⟨(g.span b).2, (g.span b).1⟩ := by
  have hy : g.yLines ≠ [] := List.ne_nil_of_length_pos (by have := h.rows; omega)
  have hcolumns := cellRange_bounds b.xMin b.xMax h.columns_ne
  have hrows := cellRange_bounds b.yMin b.yMax hy
  exact ⟨⟨hrows.1, hrows.1.trans hrows.2.1⟩, hcolumns.1, hcolumns.1.trans hcolumns.2.1⟩

lemma mark_eq (g : Grid Rat) (b : Box Rat) (cell : Cell) :
    g.mark b cell = g.fill ⟨(g.span b).2, (g.span b).1⟩ cell := rfl

lemma mark_taken (h : g.Shaped) (b : Box Rat) {cell : Cell} (hcell : cell ≠ .free) :
    Taken g (g.mark b cell) :=
  fill_taken h (span_front h b) hcell

/-- What lies between two neighbouring lines shares nothing with a span that it is no cell of. -/
lemma shared_eq_zero_of_notMem {lines : List Rat} (hsorted : lines.Pairwise (· < ·))
    {start finish : Rat} {k : Nat} (hk : k + 1 < lines.length)
    (hout : ¬ ((cellRange start finish lines).1 ≤ k ∧
      (k : Int) < (cellRange start finish lines).2)) :
    Box.shared (lines.getD k 0) (lines.getD (k + 1) 0) start finish = 0 := by
  rw [cellRange_spec hsorted start finish (List.getElem?_eq_getElem (Nat.lt_of_succ_lt hk))
    (List.getElem?_eq_getElem hk), not_and_or, not_lt, not_lt] at hout
  rw [List.getD_eq_getElem _ _ hk, List.getD_eq_getElem _ _ (Nat.lt_of_succ_lt hk)]
  rcases hout with hbefore | hbehind
  · exact Box.shared_eq_zero_of_le hbefore
  · rw [Box.shared_comm]
    exact Box.shared_eq_zero_of_le hbehind

/-- Marking a box leaves no cell free that it reaches into. -/
lemma mark_clear (h : g.Shaped) (b : Box Rat) {cell : Cell} (hcell : cell ≠ .free) :
    (g.mark b cell).Clear b := by
  intro r c hfree
  obtain ⟨hr, hc⟩ := (mark_taken h b hcell).shaped.lt_of_cell? hfree
  rw [mark_eq, cell?_fill (span_front h b), Option.map_eq_some_iff] at hfree
  obtain ⟨old, -, hnew⟩ := hfree
  split_ifs at hnew with hhas
  · exact absurd hnew hcell
  · rw [Box.overlap_eq]
    rcases not_and_or.mp hhas with hrow | hcolumn
    · exact mul_eq_zero_of_right _ (shared_eq_zero_of_notMem h.ySorted hr hrow)
    · exact mul_eq_zero_of_left (shared_eq_zero_of_notMem h.xSorted hc hcolumn) _

/-- Marking boxes one after the other leaves no cell free that one of them reaches into. -/
lemma foldl_mark {marks : List (Box Rat × Cell)} (h : g.Shaped)
    (hmarks : ∀ m ∈ marks, m.2 ≠ .free) :
    Taken g (marks.foldl (fun g m => g.mark m.1 m.2) g) ∧
      ∀ m ∈ marks, (marks.foldl (fun g m => g.mark m.1 m.2) g).Clear m.1 := by
  induction marks generalizing g with
  | nil => exact ⟨Taken.refl h, fun m hm => absurd hm List.not_mem_nil⟩
  | cons m rest ih =>
      have hcell := hmarks m List.mem_cons_self
      have htaken := mark_taken h m.1 hcell
      obtain ⟨hrest, hclear⟩ :=
        ih htaken.shaped fun m' hm' => hmarks m' (List.mem_cons_of_mem m hm')
      refine ⟨htaken.trans hrest, fun m' hm' => ?_⟩
      rcases List.mem_cons.mp hm' with rfl | hm'
      · exact hrest.clear _ (mark_clear h _ hcell)
      · exact hclear m' hm'

lemma ofBoxes_shaped (width height : Rat) (boxes : List (Box Rat)) :
    (ofBoxes width height boxes).Shaped := by
  have hpos : ∀ (side : Rat) (coordinates : List Rat), 0 < (cutLines side coordinates).length :=
    fun side coordinates => List.length_pos_of_mem (mem_cutLines_iff.mpr (Or.inl rfl))
  refine ⟨cutLines_sorted _ _, cutLines_sorted _ _, List.ne_nil_of_length_pos (hpos _ _), ?_, ?_⟩
  · rw [ofBoxes, List.length_replicate]
    exact Nat.sub_add_cancel (hpos _ _)
  · intro row hrow
    rw [List.eq_of_mem_replicate hrow, List.length_replicate]
    exact Nat.sub_add_cancel (hpos _ _)

/-- The marks of a layout, in the order in which they are made. -/
def layoutMarks (blocks blockages : List (Box Rat)) : List (Box Rat × Cell) :=
  (blocks.zipIdx.map fun m => (m.1, Cell.owned m.2)) ++ blockages.map fun b => (b, Cell.blocked)

lemma map_fst_layoutMarks (blocks blockages : List (Box Rat)) :
    (layoutMarks blocks blockages).map Prod.fst = blocks ++ blockages := by
  simp [layoutMarks, Function.comp_def]

lemma ne_free_of_mem_layoutMarks {blocks blockages : List (Box Rat)} {m : Box Rat × Cell}
    (hm : m ∈ layoutMarks blocks blockages) : m.2 ≠ Cell.free := by
  rcases List.mem_append.mp hm with hm | hm
  · obtain ⟨m', -, rfl⟩ := List.mem_map.mp hm
    exact Cell.noConfusion
  · obtain ⟨b, -, rfl⟩ := List.mem_map.mp hm
    exact Cell.noConfusion

lemma ofLayout_eq_marks (width height : Rat) (blocks blockages : List (Box Rat)) :
    ofLayout width height blocks blockages
      = (layoutMarks blocks blockages).foldl (fun g m => g.mark m.1 m.2)
          (ofBoxes width height (blocks ++ blockages)) := by
  rw [layoutMarks, List.foldl_append, List.foldl_map, List.foldl_map]
  rfl

/-- **The free cells of a layout are clear of its blocks and of its blockages.** -/
theorem ofLayout_clear (width height : Rat) (blocks blockages : List (Box Rat)) :
    Taken (ofBoxes width height (blocks ++ blockages)) (ofLayout width height blocks blockages) ∧
      ∀ b ∈ blocks ++ blockages, (ofLayout width height blocks blockages).Clear b := by
  obtain ⟨htaken, hclear⟩ := foldl_mark (ofBoxes_shaped width height (blocks ++ blockages))
    fun _ hm => ne_free_of_mem_layoutMarks hm
  rw [ofLayout_eq_marks]
  refine ⟨htaken, fun b hb => ?_⟩
  rw [← map_fst_layoutMarks] at hb
  obtain ⟨m, hm, rfl⟩ := List.mem_map.mp hb
  exact hclear m hm

end Grid

end BlockPlan
