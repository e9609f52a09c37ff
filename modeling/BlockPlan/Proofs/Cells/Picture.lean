import BlockPlan.Proofs.Cells.Grid

/-!
# The grid as a picture of the boxes

The lines of a grid that was cut for a box run along all its edges, so that no edge crosses a cell:
every cell lies inside the box or beside it, and the cells that the box meets are the ones that it
covers. Marking boxes one after the other then leaves each cell to the last one that covers it, and
the cells of a box make up as much area as it shares with the outline.

* `Resolves` — the cells that a box meets on a grid are those that it covers.
* `Occupant` — who has a cell: a blockage, else the last block that covers it, else nobody.
* `cellArea_natCast`, `ofBoxes_sum_area` — the areas of cells, and what those of a box come to.
* `Charts`, `Depicts` — what makes a grid tell who has which part of the outline, and what makes it
  an exact picture.
* **`ofLayout_depicts`** — the grid of a layout is an exact picture of its boxes.
-/

namespace BlockPlan

namespace Box

/-- The points of a box, its edges included. -/
structure Contains (b : Box Rat) (x y : Rat) : Prop where
  left : b.xMin ≤ x
  right : x ≤ b.xMax
  below : b.yMin ≤ y
  above : y ≤ b.yMax

/-- The points of a box that lie on none of its edges. -/
structure Interior (b : Box Rat) (x y : Rat) : Prop where
  left : b.xMin < x
  right : x < b.xMax
  below : b.yMin < y
  above : y < b.yMax

/-- What a box covers lies inside it. -/
lemma Covers.interior {a b : Box Rat} (h : a.Covers b) {x y : Rat} (hxy : b.Interior x y) :
    a.Interior x y :=
  ⟨h.xMin.trans_lt hxy.left, hxy.right.trans_le h.xMax, h.yMin.trans_lt hxy.below,
    hxy.above.trans_le h.yMax⟩

/-- Covering can be decided. -/
instance (a b : Box Rat) : Decidable (a.Covers b) :=
  decidable_of_iff (a.xMin ≤ b.xMin ∧ a.yMin ≤ b.yMin ∧ b.xMax ≤ a.xMax ∧ b.yMax ≤ a.yMax)
    ⟨fun h => ⟨h.1, h.2.1, h.2.2.1, h.2.2.2⟩, fun h => ⟨h.xMin, h.yMin, h.xMax, h.yMax⟩⟩

end Box

namespace Grid

variable {g g' : Grid Rat} {b : Box Rat} {r c : Nat}

/-! ## Cells and the edges of boxes -/

/-- There is a cell in a row and a column. -/
def HasCell (g : Grid Rat) (r c : Nat) : Prop := r + 1 < g.yLines.length ∧ c + 1 < g.xLines.length

/-- The cells that a box meets. -/
def spanRegion (g : Grid Rat) (b : Box Rat) : Region := ⟨(g.span b).2, (g.span b).1⟩

/-- The cells that a box meets on a grid are those that it covers. -/
def Resolves (g : Grid Rat) (b : Box Rat) : Prop :=
  ∀ r c, g.HasCell r c → ((g.spanRegion b).Has r c ↔ b.Covers (g.cellBox r c))

lemma Taken.hasCell_iff (h : Taken g g') : g'.HasCell r c ↔ g.HasCell r c := by
  rw [HasCell, HasCell, h.xLines, h.yLines]

lemma Taken.cellBox (h : Taken g g') (r c : Nat) : g'.cellBox r c = g.cellBox r c :=
  h.regionBox c (c + 1) r (r + 1)

lemma Taken.span (h : Taken g g') (b : Box Rat) : g'.span b = g.span b := by
  rw [Grid.span, Grid.span, h.xLines, h.yLines]

lemma Resolves.taken (hb : g.Resolves b) (h : Taken g g') : g'.Resolves b := by
  intro r c hcell
  rw [h.cellBox, spanRegion, h.span]
  exact hb r c (h.hasCell_iff.mp hcell)

section Cut

variable {width height : Rat} {boxes : List (Box Rat)}

lemma edges_mem (hb : b ∈ boxes) :
    (b.xMin ∈ boxes.flatMap (fun b => [b.xMin, b.xMax]) ∧
        b.xMax ∈ boxes.flatMap (fun b => [b.xMin, b.xMax])) ∧
      b.yMin ∈ boxes.flatMap (fun b => [b.yMin, b.yMax]) ∧
        b.yMax ∈ boxes.flatMap (fun b => [b.yMin, b.yMax]) := by
  simp only [List.mem_flatMap]
  exact ⟨⟨⟨b, hb, by simp⟩, ⟨b, hb, by simp⟩⟩, ⟨b, hb, by simp⟩, ⟨b, hb, by simp⟩⟩

variable (hwidth : 0 < width) (hheight : 0 < height) (hb : b ∈ boxes)

include hwidth hheight hb

/-- **The cells that a box meets are those that it covers**, on a grid that was cut for it. -/
theorem ofBoxes_resolves : (ofBoxes width height boxes).Resolves b := by
  intro r c hcell
  obtain ⟨⟨hxMin, hxMax⟩, hyMin, hyMax⟩ := edges_mem hb
  have hcolumns :=
    cellRange_cutLines_iff hwidth (List.getElem?_eq_getElem (Nat.lt_of_succ_lt hcell.2))
    (List.getElem?_eq_getElem hcell.2) hxMin hxMax
  have hrows :=
    cellRange_cutLines_iff hheight (List.getElem?_eq_getElem (Nat.lt_of_succ_lt hcell.1))
    (List.getElem?_eq_getElem hcell.1) hyMin hyMax
  rw [← List.getD_eq_getElem _ 0, ← List.getD_eq_getElem _ 0] at hcolumns hrows
  refine (and_congr hrows hcolumns).trans ?_
  exact ⟨fun h => ⟨h.2.1, h.1.1, h.2.2, h.1.2⟩, fun h => ⟨⟨h.yMin, h.yMax⟩, h.xMin, h.xMax⟩⟩

/-- **A cell lies inside a box or beside it**, on a grid that was cut for the box. -/
theorem ofBoxes_parted (hcell : (ofBoxes width height boxes).HasCell r c) :
    b.Covers ((ofBoxes width height boxes).cellBox r c) ∨
      ∀ x y, ((ofBoxes width height boxes).cellBox r c).Interior x y → ¬ b.Contains x y := by
  obtain ⟨⟨hxMin, hxMax⟩, hyMin, hyMax⟩ := edges_mem hb
  have hcolumn : ∀ {x}, x ∈ boxes.flatMap (fun b => [b.xMin, b.xMax]) →
      x ≤ ((ofBoxes width height boxes).cellBox r c).xMin ∨
        ((ofBoxes width height boxes).cellBox r c).xMax ≤ x := by
    intro x hx
    have hbeside := le_or_le_of_mem hwidth
      (List.getElem?_eq_getElem (Nat.lt_of_succ_lt hcell.2)) (List.getElem?_eq_getElem hcell.2) hx
    rwa [← List.getD_eq_getElem _ 0, ← List.getD_eq_getElem _ 0] at hbeside
  have hrow : ∀ {y}, y ∈ boxes.flatMap (fun b => [b.yMin, b.yMax]) →
      y ≤ ((ofBoxes width height boxes).cellBox r c).yMin ∨
        ((ofBoxes width height boxes).cellBox r c).yMax ≤ y := by
    intro y hy
    have hbeside := le_or_le_of_mem hheight
      (List.getElem?_eq_getElem (Nat.lt_of_succ_lt hcell.1)) (List.getElem?_eq_getElem hcell.1) hy
    rwa [← List.getD_eq_getElem _ 0, ← List.getD_eq_getElem _ 0] at hbeside
  -- an edge that lies beyond the cell keeps its inner points out of the box
  rcases hcolumn hxMin with hleft | hout
  · rcases hcolumn hxMax with hout | hright
    · exact Or.inr fun x y hxy hin => (hin.right.trans hout).not_gt hxy.left
    · rcases hrow hyMin with hbelow | hout
      · rcases hrow hyMax with hout | habove
        · exact Or.inr fun x y hxy hin => (hin.above.trans hout).not_gt hxy.below
        · exact Or.inl ⟨hleft, hbelow, hright, habove⟩
      · exact Or.inr fun x y hxy hin => (hout.trans hin.below).not_gt hxy.above
  · exact Or.inr fun x y hxy hin => (hout.trans hin.left).not_gt hxy.right

end Cut

/-! ## Who has a cell -/

/-- Who has a cell: a blockage that covers it, or else the last block that does, or else nobody. -/
inductive Occupant (blocks blockages : List (Box Rat)) (cell : Box Rat) : Cell → Prop
  | blocked (b : Box Rat) (hb : b ∈ blockages) (hcovers : b.Covers cell) :
      Occupant blocks blockages cell .blocked
  | owned (i : Nat) (b : Box Rat) (hb : blocks[i]? = some b) (hcovers : b.Covers cell)
      (hlast : ∀ j b', i < j → blocks[j]? = some b' → ¬ b'.Covers cell)
      (hclear : ∀ b' ∈ blockages, ¬ b'.Covers cell) : Occupant blocks blockages cell (.owned i)
  | free (hclear : ∀ b ∈ blocks ++ blockages, ¬ b.Covers cell) :
    Occupant blocks blockages cell .free

namespace Occupant

variable {blocks blockages : List (Box Rat)} {cell : Box Rat} {o o' : Cell}

/-- Only one can have a cell. -/
lemma unique (h : Occupant blocks blockages cell o) (h' : Occupant blocks blockages cell o') :
    o = o' := by
  cases h with
  | blocked b hb hcovers =>
      cases h' with
      | blocked => rfl
      | owned i b' hb' hcovers' hlast hclear => exact absurd hcovers (hclear b hb)
      | free hclear => exact absurd hcovers (hclear b (List.mem_append_right _ hb))
  | owned i b hb hcovers hlast hclear =>
      cases h' with
      | blocked b' hb' hcovers' => exact absurd hcovers' (hclear b' hb')
      | owned j b' hb' hcovers' hlast' hclear' =>
          rcases lt_trichotomy i j with hlt | rfl | hlt
          · exact absurd hcovers' (hlast j b' hlt hb')
          · rfl
          · exact absurd hcovers (hlast' i b hlt hb)
      | free hclear' =>
          exact absurd hcovers (hclear' b (List.mem_append_left _ (List.mem_of_getElem? hb)))
  | free hclear =>
      cases h' with
      | blocked b hb hcovers => exact absurd hcovers (hclear b (List.mem_append_right _ hb))
      | owned i b hb hcovers hlast hclear' =>
          exact absurd hcovers (hclear b (List.mem_append_left _ (List.mem_of_getElem? hb)))
      | free => rfl

/-- A cell is free exactly if no box covers it. -/
lemma free_iff : Occupant blocks blockages cell .free ↔
    ∀ b ∈ blocks ++ blockages, ¬ b.Covers cell := by
  refine ⟨fun h => ?_, Occupant.free⟩
  cases h with
  | free hclear => exact hclear

/-- A further block takes the cells that it covers, as long as there are no blockages. -/
lemma snoc_block (h : Occupant blocks [] cell o) (b : Box Rat) :
    Occupant (blocks ++ [b]) [] cell (if b.Covers cell then .owned blocks.length else o) := by
  split_ifs with hcovers
  · refine owned blocks.length b (by simp) hcovers (fun j b' hlt hb' => ?_) (by simp)
    have := (List.getElem?_eq_some_iff.mp hb').1
    rw [List.length_append, List.length_singleton] at this
    omega
  · cases h with
    | blocked b' hb' => exact absurd hb' List.not_mem_nil
    | owned i b' hb' hcovers' hlast hclear =>
        have hi := (List.getElem?_eq_some_iff.mp hb').1
        refine owned i b' (by rw [List.getElem?_append_left hi, hb']) hcovers' ?_ hclear
        intro j b'' hlt hb''
        rcases Nat.lt_or_ge j blocks.length with hj | hj
        · rw [List.getElem?_append_left hj] at hb''
          exact hlast j b'' hlt hb''
        · rw [List.getElem?_append_right hj, List.getElem?_singleton] at hb''
          split_ifs at hb''
          rwa [← Option.some.inj hb'']
    | free hclear =>
        refine free fun b' hb' => ?_
        rw [List.append_nil, List.mem_append, List.mem_singleton] at hb'
        rcases hb' with hb' | rfl
        · exact hclear b' (List.mem_append_left _ hb')
        · exact hcovers

/-- A further blockage takes the cells that it covers. -/
lemma snoc_blockage (h : Occupant blocks blockages cell o) (b : Box Rat) :
    Occupant blocks (blockages ++ [b]) cell (if b.Covers cell then .blocked else o) := by
  split_ifs with hcovers
  · exact blocked b (by simp) hcovers
  · have hsnoc : (∀ b' ∈ blockages, ¬ b'.Covers cell) →
        ∀ b' ∈ blockages ++ [b], ¬ b'.Covers cell := by
      intro hclear b' hb'
      rcases List.mem_append.mp hb' with hb' | hb'
      · exact hclear b' hb'
      · rwa [List.mem_singleton.mp hb']
    cases h with
    | blocked b' hb' hcovers' => exact blocked b' (List.mem_append_left _ hb') hcovers'
    | owned i b' hb' hcovers' hlast hclear => exact owned i b' hb' hcovers' hlast (hsnoc hclear)
    | free hclear =>
        refine free fun b' hb' => ?_
        rcases List.mem_append.mp hb' with hb' | hb'
        · exact hclear b' (List.mem_append_left _ hb')
        · exact hsnoc (fun b'' hb'' => hclear b'' (List.mem_append_right _ hb'')) b' hb'

end Occupant

/-- Every cell of a grid has the occupant that blocks and blockages leave it to. -/
def Occupied (g : Grid Rat) (blocks blockages : List (Box Rat)) : Prop :=
  ∀ r c, g.HasCell r c → ∃ o, g.cell? r c = some o ∧ Occupant blocks blockages (g.cellBox r c) o

/-- Marking a box gives it the cells that it covers. -/
lemma cell?_mark (h : g.Shaped) (hb : g.Resolves b) (owner : Cell) (hcell : g.HasCell r c)
    {o : Cell} (ho : g.cell? r c = some o) :
    (g.mark b owner).cell? r c = some (if b.Covers (g.cellBox r c) then owner else o) := by
  rw [mark_eq, cell?_fill (span_front h b), ho, Option.map_some]
  have hiff := hb r c hcell
  rw [spanRegion] at hiff
  simp only [hiff]

/-- Marking a box with its owner leaves every cell to whom the boxes, now with
this one, leave it. -/
lemma Occupied.mark {blocks blockages blocks' blockages' : List (Box Rat)} {owner : Cell}
    (h : g.Shaped) (hb : g.Resolves b) (howner : owner ≠ .free) (hocc : g.Occupied blocks blockages)
    (hsnoc : ∀ {cell : Box Rat} {o : Cell}, Occupant blocks blockages cell o →
      Occupant blocks' blockages' cell (if b.Covers cell then owner else o)) :
    (g.mark b owner).Occupied blocks' blockages' := by
  intro r c hcell
  have htaken := mark_taken h b howner
  rw [htaken.hasCell_iff] at hcell
  obtain ⟨o, ho, hwho⟩ := hocc r c hcell
  rw [htaken.cellBox]
  exact ⟨_, cell?_mark h hb _ hcell ho, hsnoc hwho⟩

lemma ofBoxes_occupied (width height : Rat) (boxes : List (Box Rat)) :
    (ofBoxes width height boxes).Occupied [] [] := by
  intro r c hcell
  refine ⟨.free, ?_, Occupant.free_iff.mpr fun b hb => absurd hb List.not_mem_nil⟩
  obtain ⟨hr, hc⟩ := hcell
  rw [ofBoxes] at hr hc
  rw [cell?, ofBoxes, List.getElem?_replicate_of_lt (Nat.lt_sub_of_add_lt hr), Option.bind_some,
    List.getElem?_replicate_of_lt (Nat.lt_sub_of_add_lt hc)]

lemma layoutMarks_snoc_block (blocks : List (Box Rat)) (b : Box Rat) :
    layoutMarks (blocks ++ [b]) [] = layoutMarks blocks [] ++ [(b, .owned blocks.length)] := by
  simp [layoutMarks, List.zipIdx_append]

lemma layoutMarks_snoc_blockage (blocks blockages : List (Box Rat)) (b : Box Rat) :
    layoutMarks blocks (blockages ++ [b]) = layoutMarks blocks blockages ++ [(b, .blocked)] := by
  rw [layoutMarks, List.map_append, ← List.append_assoc]
  rfl

/-- Marking blocks and then blockages, on a grid that was cut for all of them. -/
lemma foldl_mark_occupied {blocks blockages : List (Box Rat)} (h : g.Shaped)
    (hocc : g.Occupied [] []) (hresolves : ∀ b ∈ blocks ++ blockages, g.Resolves b) :
    ((layoutMarks blocks blockages).foldl (fun g m => g.mark m.1 m.2) g).Occupied
      blocks blockages := by
  have htaken : ∀ blocks blockages,
      Taken g ((layoutMarks blocks blockages).foldl (fun g m => g.mark m.1 m.2) g) :=
    fun blocks blockages => (foldl_mark h fun _ hm => ne_free_of_mem_layoutMarks hm).1
  induction blockages using List.reverseRecOn with
  | nil =>
      induction blocks using List.reverseRecOn with
      | nil => exact hocc
      | append_singleton blocks b ih =>
          rw [layoutMarks_snoc_block, List.foldl_append, List.foldl_cons, List.foldl_nil]
          exact Occupied.mark (htaken blocks []).shaped
            ((hresolves b (by simp)).taken (htaken blocks [])) Cell.noConfusion
            (ih fun b' hb' => hresolves b' (by simp_all)) fun hwho => hwho.snoc_block b
  | append_singleton blockages b ih =>
      rw [layoutMarks_snoc_blockage, List.foldl_append, List.foldl_cons, List.foldl_nil]
      refine Occupied.mark (htaken blocks blockages).shaped
        ((hresolves b (by simp)).taken (htaken blocks blockages)) Cell.noConfusion
        (ih fun b' hb' => hresolves b' ?_) fun hwho => hwho.snoc_blockage b
      rw [← List.append_assoc]
      exact List.mem_append_left _ hb'

/-! ## Areas of cells -/

/-- The area of the cell in a row and a column. -/
def areaAt (g : Grid Rat) (r c : Nat) : Rat :=
  (g.xLines.getD (c + 1) 0 - g.xLines.getD c 0) * (g.yLines.getD (r + 1) 0 - g.yLines.getD r 0)

lemma Taken.areaAt (h : Taken g g') (r c : Nat) : g'.areaAt r c = g.areaAt r c := by
  rw [Grid.areaAt, Grid.areaAt, h.xLines, h.yLines]

/-- Every cell has its area. -/
lemma cellArea_natCast (hcell : g.HasCell r c) :
    g.cellArea (r : Int) (c : Int) = .ok (g.areaAt r c) := by
  obtain ⟨hr, hc⟩ := hcell
  have hentry : ∀ {lines : List Rat} {k : Nat}, k < lines.length →
      (Slot.entry lines (k : Int) : Except (Fault Rat) Rat) = .ok (lines.getD k 0) := by
    intro lines k hk
    rw [List.getD_eq_getElem _ _ hk]
    exact Slot.entry_natCast (List.getElem?_eq_getElem hk)
  rw [cellArea, ← Nat.cast_succ, ← Nat.cast_succ, hentry hc, hentry hr,
    hentry (Nat.lt_of_succ_lt hc), hentry (Nat.lt_of_succ_lt hr)]
  rfl

/-- What a span shares with all cells of an axis is what it shares with the axis. -/
lemma sum_shared {lines : List Rat} (hsorted : lines.Pairwise (· < ·)) (lo hi : Rat) {n : Nat}
    (hn : n < lines.length) :
    ∑ k ∈ Finset.range n, Box.shared (lines.getD k 0) (lines.getD (k + 1) 0) lo hi
      = Box.shared (lines.getD 0 0) (lines.getD n 0) lo hi := by
  induction n with
  | zero => rw [Finset.sum_range_zero, Box.shared_eq_zero_of_ge le_rfl]
  | succ n ih =>
      rw [Finset.sum_range_succ, ih (by omega),
        Box.shared_add (line_mono hsorted n.zero_le (by omega)) (line_mono hsorted n.le_succ hn)]

/-- **The cells of a span are as long together as what it shares with its axis**, if the axis was
cut for the span. -/
lemma sum_gaps_cellRange {side start finish : Rat} {coordinates : List Rat} (hside : 0 < side)
    (hstart : start ∈ coordinates) (hfinish : finish ∈ coordinates) {i j : Nat}
    (hrange : cellRange start finish (cutLines side coordinates) = ((i : Int), (j : Int))) :
    ∑ k ∈ Finset.Ico i j,
        ((cutLines side coordinates).getD (k + 1) 0 - (cutLines side coordinates).getD k 0)
      = Box.shared start finish 0 side := by
  have hdivides := cutLines_divides hside coordinates
  have hsorted := hdivides.sorted
  have hcells := fun k (hk : k + 1 < (cutLines side coordinates).length) =>
    cellRange_cutLines_iff hside (List.getElem?_eq_getElem (Nat.lt_of_succ_lt hk))
      (List.getElem?_eq_getElem hk) hstart hfinish
  have hbound := (cellRange_bounds start finish
    (List.ne_nil_of_mem (List.mem_of_head? hdivides.head?))).2.2
  have hzero := @shared_eq_zero_of_notMem _ hsorted start finish
  rw [hrange] at hbound hcells hzero
  generalize cutLines side coordinates = lines at hdivides hsorted hcells hbound hzero ⊢
  dsimp only at hbound hcells hzero
  have hinside : ∀ k ∈ Finset.Ico i j, lines.getD (k + 1) 0 - lines.getD k 0
      = Box.shared (lines.getD k 0) (lines.getD (k + 1) 0) start finish := by
    intro k hk
    rw [Finset.mem_Ico] at hk
    have hlt : k + 1 < lines.length := by omega
    obtain ⟨hfrom, hupto⟩ := (hcells k hlt).mp ⟨by omega, by omega⟩
    rw [List.getD_eq_getElem _ _ hlt, List.getD_eq_getElem _ _ (Nat.lt_of_succ_lt hlt), Box.shared,
      min_eq_left hupto, max_eq_left hfrom, max_eq_right]
    exact sub_nonneg.mpr (List.pairwise_iff_getElem.mp hsorted k (k + 1) _ hlt k.lt_succ_self).le
  have hall : Finset.Ico i j ⊆ Finset.range (lines.length - 1) := fun k hk =>
    Finset.mem_range.mpr (by rw [Finset.mem_Ico] at hk; omega)
  have houtside : ∀ k ∈ Finset.range (lines.length - 1), k ∉ Finset.Ico i j →
      Box.shared (lines.getD k 0) (lines.getD (k + 1) 0) start finish = 0 := by
    intro k hk hout
    rw [Finset.mem_range] at hk
    rw [Finset.mem_Ico] at hout
    exact hzero (by omega) (by omega)
  rw [Finset.sum_congr rfl hinside, Finset.sum_subset hall houtside,
    sum_shared hsorted start finish (by omega), hdivides.getD_zero, hdivides.getD_last,
    Box.shared_comm]

/-- The cells of a box make up as much area as it shares with the outline. -/
lemma ofBoxes_sum_area {width height : Rat} {boxes : List (Box Rat)} (hwidth : 0 < width)
    (hheight : 0 < height) (hb : b ∈ boxes) {left right bottom top : Nat}
    (hspan : (ofBoxes width height boxes).span b
      = (((left : Int), (right : Int)), ((bottom : Int), (top : Int)))) :
    ∑ r ∈ Finset.Ico bottom top, ∑ c ∈ Finset.Ico left right,
      (ofBoxes width height boxes).areaAt r c
      = b.overlap ⟨0, 0, width, height⟩ := by
  obtain ⟨⟨hxMin, hxMax⟩, hyMin, hyMax⟩ := edges_mem hb
  obtain ⟨hcolumns, hrows⟩ := Prod.mk.inj hspan
  rw [Box.overlap_eq, ← sum_gaps_cellRange hwidth hxMin hxMax hcolumns,
    ← sum_gaps_cellRange hheight hyMin hyMax hrows, mul_comm, Finset.sum_mul_sum]
  exact Finset.sum_congr rfl fun r _ => Finset.sum_congr rfl fun c _ => mul_comm _ _

/-! ## The picture -/

/-- A grid that says of every part of an outline who has it. -/
structure Charts (g : Grid Rat) (width height : Rat) (blocks blockages : List (Box Rat)) :
    Prop where
  /-- The lines of either axis ascend strictly from zero to the side of the outline. -/
  columns : Divides width g.xLines
  rows : Divides height g.yLines
  /-- Every cell lies inside a box or has no inner point in common with it. -/
  parted : ∀ b ∈ blocks ++ blockages, ∀ r c, g.HasCell r c →
    b.Covers (g.cellBox r c) ∨ ∀ x y, (g.cellBox r c).Interior x y → ¬ b.Contains x y
  /-- There is a cell between any two neighbouring columns and rows, and who has it is decided by
  the boxes that cover it. -/
  occupied : ∀ r c o, g.cell? r c = some o ↔
    g.HasCell r c ∧ Occupant blocks blockages (g.cellBox r c) o

/-- A grid that is an exact picture of blocks and blockages in an outline. -/
structure Depicts (g : Grid Rat) (width height : Rat) (blocks blockages : List (Box Rat)) : Prop
    extends g.Charts width height blocks blockages where
  /-- The cells that a box is mapped to are cells of the grid, and their areas come to the area that
  the box shares with the outline. -/
  area : ∀ b ∈ blocks ++ blockages, ∃ left right bottom top : Nat,
    g.span b = (((left : Int), (right : Int)), ((bottom : Int), (top : Int))) ∧
      (∀ r ∈ Finset.Ico bottom top, ∀ c ∈ Finset.Ico left right,
        g.HasCell r c ∧ g.cellArea (r : Int) (c : Int) = .ok (g.areaAt r c)) ∧
      ∑ r ∈ Finset.Ico bottom top, ∑ c ∈ Finset.Ico left right, g.areaAt r c
        = b.overlap ⟨0, 0, width, height⟩

/-- The cells that a box is mapped to are cells of the grid. -/
lemma Shaped.exists_span (h : g.Shaped) (b : Box Rat) : ∃ left right bottom top : Nat,
    g.span b = (((left : Int), (right : Int)), ((bottom : Int), (top : Int))) ∧
      right < g.xLines.length ∧ top < g.yLines.length := by
  have hy : g.yLines ≠ [] := List.ne_nil_of_length_pos (by have := h.rows; omega)
  obtain ⟨hleft, hright, hcolumns⟩ := cellRange_bounds b.xMin b.xMax h.columns_ne
  obtain ⟨hbottom, htop, hrows⟩ := cellRange_bounds b.yMin b.yMax hy
  obtain ⟨left, hleft'⟩ := Int.eq_ofNat_of_zero_le hleft
  obtain ⟨right, hright'⟩ := Int.eq_ofNat_of_zero_le (hleft.trans hright)
  obtain ⟨bottom, hbottom'⟩ := Int.eq_ofNat_of_zero_le hbottom
  obtain ⟨top, htop'⟩ := Int.eq_ofNat_of_zero_le (hbottom.trans htop)
  have hspan : g.span b = (((left : Int), (right : Int)), ((bottom : Int), (top : Int))) :=
    Prod.ext (Prod.ext hleft' hright') (Prod.ext hbottom' htop')
  exact ⟨left, right, bottom, top, hspan, by omega, by omega⟩

/-- The grid of a layout says who has which part of the outline. -/
lemma ofLayout_charts {width height : Rat} (hwidth : 0 < width) (hheight : 0 < height)
    (blocks blockages : List (Box Rat)) :
    (ofLayout width height blocks blockages).Charts width height blocks blockages := by
  have htaken := (ofLayout_clear width height blocks blockages).1
  have hocc : (ofLayout width height blocks blockages).Occupied blocks blockages := by
    rw [ofLayout_eq_marks]
    exact foldl_mark_occupied (ofBoxes_shaped width height _) (ofBoxes_occupied width height _)
      fun b hb => ofBoxes_resolves hwidth hheight hb
  constructor
  case columns =>
    rw [htaken.xLines]
    exact cutLines_divides hwidth _
  case rows =>
    rw [htaken.yLines]
    exact cutLines_divides hheight _
  case parted =>
    intro b hb r c hcell
    rw [htaken.cellBox]
    exact ofBoxes_parted hwidth hheight hb (htaken.hasCell_iff.mp hcell)
  case occupied =>
    intro r c o
    constructor
    · intro ho
      have hcell := htaken.shaped.lt_of_cell? ho
      obtain ⟨o', ho', hwho⟩ := hocc r c hcell
      obtain rfl := Option.some.inj (ho.symm.trans ho')
      exact ⟨hcell, hwho⟩
    · rintro ⟨hcell, hwho⟩
      obtain ⟨o', ho', hwho'⟩ := hocc r c hcell
      rw [ho', hwho.unique hwho']

/-- **The grid of a layout is an exact picture of its boxes**, wherever they lie: they may overlap,
have no area, or lie outside the outline in part or altogether. -/
theorem ofLayout_depicts {width height : Rat} (hwidth : 0 < width) (hheight : 0 < height)
    (blocks blockages : List (Box Rat)) :
    (ofLayout width height blocks blockages).Depicts width height blocks blockages := by
  have htaken := (ofLayout_clear width height blocks blockages).1
  refine ⟨ofLayout_charts hwidth hheight blocks blockages, ?_⟩
  intro b hb
  obtain ⟨left, right, bottom, top, hspan, hright, htop⟩ :=
    (ofBoxes_shaped width height (blocks ++ blockages)).exists_span b
  refine ⟨left, right, bottom, top, (htaken.span b).trans hspan, ?_, ?_⟩
  · intro r hr c hc
    rw [Finset.mem_Ico] at hr hc
    have hcell := htaken.hasCell_iff.mpr (show HasCell _ r c from ⟨by omega, by omega⟩)
    exact ⟨hcell, cellArea_natCast hcell⟩
  · rw [← ofBoxes_sum_area hwidth hheight hb hspan]
    exact Finset.sum_congr rfl fun r _ => Finset.sum_congr rfl fun c _ => htaken.areaAt r c

/-- Two blocks that overlap, one of them beyond the outline, and blockages without width and around
a corner. -/
theorem ofLayout_depicts_overlapping :
    ((0 : Rat) < 10 ∧ (0 : Rat) < 6) ∧
      (ofLayout (10 : Rat) 6 [⟨0, 0, 4, 3⟩, ⟨3, 1, 12, 5⟩] [⟨5, 2, 5, 8⟩, ⟨-1, -1, 1, 1⟩]).Depicts
        10 6 [⟨0, 0, 4, 3⟩, ⟨3, 1, 12, 5⟩] [⟨5, 2, 5, 8⟩, ⟨-1, -1, 1, 1⟩] :=
  ⟨by norm_num, ofLayout_depicts (by norm_num) (by norm_num) _ _⟩

end Grid

end BlockPlan
