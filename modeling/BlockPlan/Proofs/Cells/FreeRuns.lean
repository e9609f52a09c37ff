import BlockPlan.Proofs.Cells.Grid
import BlockPlan.Proofs.Cells.Runs

/-!
# The free runs of a grid

The lengths of runs are listed like the cells, row by row, whether they are measured along rows or
along columns; `table` writes such a list down by its entries.  Along a column a run is one of a row
of the transposed grid.

* `table`, `getElem?_table`, `transpose_table` — lists of rows of the same length, their entries,
  and the exchange of rows and columns.
* `Grid.freeAt`, `Grid.runAt` — whether a cell is free, and the length of its run.
* **`Grid.freeRuns_eq`** — the runs of a grid have these lengths.
* **`Grid.runAt_alongRows`**, **`Grid.runAt_alongColumns`** — between lines, the length of a run is
  the distance of the lines around it.
-/

namespace BlockPlan

/-! ## Tables -/

section Tables

variable {β γ : Type} {m n : Nat} {f : Nat → Nat → β}

/-- The rows of a table. -/
def table (m n : Nat) (f : Nat → Nat → β) : List (List β) :=
  (List.range m).map fun i => (List.range n).map (f i)

/-- Rows of the same length are a table. -/
lemma eq_table {rows : List (List β)} (hlength : rows.length = m)
    (hrows : ∀ row ∈ rows, row.length = n)
    (h : ∀ i j v, rows[i]?.bind (·[j]?) = some v → f i j = v) : rows = table m n f := by
  refine List.ext_getElem (by rw [table, List.length_map, List.length_range, hlength])
    fun i hi _ => ?_
  simp only [table, List.getElem_map, List.getElem_range]
  refine List.ext_getElem ?_ fun j hj _ => ?_
  · rw [List.length_map, List.length_range, hrows _ (List.getElem_mem hi)]
  · rw [List.getElem_map, List.getElem_range]
    refine (h i j _ ?_).symm
    rw [List.getElem?_eq_getElem hi, Option.bind_some, List.getElem?_eq_getElem hj]

lemma length_table : (table m n f).length = m := by rw [table, List.length_map, List.length_range]

lemma length_of_mem_table {row : List β} (hrow : row ∈ table m n f) : row.length = n := by
  obtain ⟨i, -, rfl⟩ := List.mem_map.mp hrow
  rw [List.length_map, List.length_range]

lemma getElem?_table {i j : Nat} {v : β} :
    (table m n f)[i]?.bind (·[j]?) = some v ↔ i < m ∧ j < n ∧ f i j = v := by
  rw [table, List.getElem?_map]
  rcases Nat.lt_or_ge i m with hi | hi
  · rw [List.getElem?_range hi, Option.map_some, Option.bind_some, List.getElem?_map]
    rcases Nat.lt_or_ge j n with hj | hj
    · rw [List.getElem?_range hj, Option.map_some, Option.some_inj]
      exact ⟨fun h => ⟨hi, hj, h⟩, fun h => h.2.2⟩
    · rw [List.getElem?_eq_none (by rwa [List.length_range])]
      exact ⟨nofun, fun h => absurd h.2.1 (not_lt.mpr hj)⟩
  · rw [List.getElem?_eq_none (by rwa [List.length_range])]
    exact ⟨nofun, fun h => absurd h.1 (not_lt.mpr hi)⟩

/-- **Exchanging rows and columns of a table.** -/
lemma transpose_table : transpose n (table m n f) = table n m fun j i => f i j := by
  refine List.map_congr_left fun j hj => ?_
  rw [table, List.filterMap_map]
  have hentry : ∀ i, ((List.range n).map (f i))[j]? = some (f i j) := fun i => by
    rw [List.getElem?_map, List.getElem?_range (List.mem_range.mp hj), Option.map_some]
  simp only [Function.comp_def, hentry, List.filterMap_eq_map']

end Tables

/-- A row that is listed as far as places are free. -/
lemma getD_map_range {f : Nat → Bool} {n : Nat} (hf : ∀ k, n ≤ k → f k = false) :
    (fun k => ((List.range n).map f).getD k false) = f := by
  funext k
  rw [List.getD_eq_getElem?_getD, List.getElem?_map]
  rcases Nat.lt_or_ge k n with hlt | hge
  · rw [List.getElem?_range hlt, Option.map_some, Option.getD_some]
  · rw [List.getElem?_eq_none (by rwa [List.length_range]), Option.map_none,
      Option.getD_none, hf k hge]

/-! ## Gaps -/

lemma gaps_eq (lines : List Rat) :
    gaps lines = (List.range (lines.length - 1)).map fun k =>
      lines.getD (k + 1) 0 - lines.getD k 0 := by
  induction lines with
  | nil => rfl
  | cons a rest ih =>
      cases rest with
      | nil => rfl
      | cons b rest =>
          rw [gaps, ih]
          simp only [List.length_cons, Nat.add_sub_cancel, List.range_succ_eq_map,
            List.map_cons, List.map_map]
          rfl

lemma length_gaps (lines : List Rat) : (gaps lines).length = lines.length - 1 := by
  rw [gaps_eq, List.length_map, List.length_range]

lemma getElem_gaps {lines : List Rat} {k : Nat} (hk : k < (gaps lines).length) :
    (gaps lines)[k] = lines.getD (k + 1) 0 - lines.getD k 0 := by
  simp only [gaps_eq, List.getElem_map, List.getElem_range]

/-- The offsets of the gaps are the distances from the first line. -/
lemma getD_offsets_gaps {lines : List Rat} {k : Nat} (hk : k < lines.length) :
    (offsets (gaps lines)).getD k 0 = lines.getD k 0 - lines.getD 0 0 := by
  have hsums : offsets (gaps lines) = (gaps lines).partialSums := rfl
  rw [List.getD_eq_getElem?_getD, hsums, List.getElem?_partialSums,
    if_pos (by rw [length_gaps]; omega), Option.getD_some]
  induction k with
  | zero => simp
  | succ k ih =>
      have hlt : k < (gaps lines).length := by rw [length_gaps]; omega
      rw [List.sum_take_succ _ _ hlt, ih (by omega), getElem_gaps]
      ring

namespace Grid

variable {g : Grid Rat} {r c s e : Nat}

/-! ## Cells and runs -/

/-- A grid with a row of cells between any two neighbouring rows, each with a cell between any two
neighbouring columns. -/
structure Rectangular (g : Grid Rat) : Prop where
  rows : g.cells.length + 1 = g.yLines.length
  columns : ∀ row ∈ g.cells, row.length + 1 = g.xLines.length

lemma Shaped.rectangular (h : g.Shaped) : g.Rectangular := ⟨h.rows, h.columns⟩

/-- Whether there is a free cell in a row and a column. -/
def freeAt (g : Grid Rat) (r c : Nat) : Bool := g.cell? r c == some .free

/-- The length of the run of the cell in a row and a column. -/
def runAt (g : Grid Rat) (direction : RunDirection) (r c : Nat) : Rat :=
  match direction with
  | .alongRows =>
    (rowLengths (offsets g.widths) ((List.range (g.xLines.length - 1)).map (g.freeAt r))).getD c 0
  | .alongColumns =>
    (rowLengths (offsets g.heights)
      ((List.range (g.yLines.length - 1)).map fun r => g.freeAt r c)).getD r 0

lemma freeAt_iff : g.freeAt r c = true ↔ g.cell? r c = some .free := beq_iff_eq

section Rectangular

variable (h : g.Rectangular)

include h

lemma Rectangular.lt_of_freeAt (hfree : g.freeAt r c = true) :
    r < g.yLines.length - 1 ∧ c < g.xLines.length - 1 := by
  obtain ⟨row, hrow, hc⟩ := cell?_eq_some_iff.mp (freeAt_iff.mp hfree)
  have hr := (List.getElem?_eq_some_iff.mp hrow).1
  have hc := (List.getElem?_eq_some_iff.mp hc).1
  have hcolumns := h.columns row (List.mem_of_getElem? hrow)
  have hrows := h.rows
  omega

lemma Rectangular.freeAt_eq_false (hout : g.yLines.length - 1 ≤ r ∨ g.xLines.length - 1 ≤ c) :
    g.freeAt r c = false := by
  by_contra hfree
  have := h.lt_of_freeAt (Bool.not_eq_false _ ▸ hfree)
  omega

lemma freeCells_eq : g.freeCells = table (g.yLines.length - 1) (g.xLines.length - 1) g.freeAt := by
  have hrows := h.rows
  refine eq_table ?_ (fun row hrow => ?_) fun r c free hfree => ?_
  · rw [freeCells, List.length_map]
    omega
  · obtain ⟨cells, hcells, rfl⟩ := List.mem_map.mp hrow
    have hcolumns := h.columns cells hcells
    rw [List.length_map]
    omega
  · rw [freeCells, List.getElem?_map] at hfree
    rw [freeAt, cell?]
    cases hrow : g.cells[r]? with
    | none =>
        rw [hrow] at hfree
        cases hfree
    | some row =>
        rw [hrow, Option.map_some, Option.bind_some, List.getElem?_map] at hfree
        rw [Option.bind_some]
        cases hcell : row[c]? with
        | none =>
            rw [hcell] at hfree
            cases hfree
        | some cell =>
            rw [hcell, Option.map_some, Option.some.injEq] at hfree
            rw [← hfree]
            rfl

omit h in
/-- The lengths of runs along the rows of a table. -/
lemma runLengths_table {m n : Nat} (sizes : List Rat) (f : Nat → Nat → Bool) :
    runLengths sizes (table m n f)
      = table m n fun i j => (rowLengths (offsets sizes) ((List.range n).map (f i))).getD j 0 := by
  rw [runLengths_eq, table, List.map_map]
  refine List.map_congr_left fun i _ => ?_
  have hlength : (rowLengths (offsets sizes) ((List.range n).map (f i))).length = n := by
    rw [rowLengths, length_spreadLengths, List.length_map, List.length_range]
  refine List.ext_getElem (by rw [List.length_map, List.length_range]; exact hlength)
    fun j hj _ => ?_
  rw [List.getElem_map, List.getElem_range]
  exact (List.getD_eq_getElem _ _ hj).symm

omit h in
lemma freeAt_of_hasFree (hnone : g.hasFree = false) (r c : Nat) : g.freeAt r c = false := by
  by_contra hfree
  rw [Bool.not_eq_false, freeAt_iff, cell?_eq_some_iff] at hfree
  obtain ⟨row, hrow, hc⟩ := hfree
  have hall : g.hasFree = true := List.any_eq_true.mpr ⟨row, List.mem_of_getElem? hrow,
    List.any_eq_true.mpr ⟨.free, List.mem_of_getElem? hc, beq_self_eq_true _⟩⟩
  rw [hnone] at hall
  cases hall

omit h in
/-- A row without free places has no lengths. -/
lemma getD_rowLengths_eq_zero (line : List Rat) {row : List Bool} {j : Nat}
    (hj : row.getD j false = false) : (rowLengths line row).getD j 0 = 0 := by
  rw [List.getD_eq_getElem?_getD]
  cases hcell : row[j]? with
  | none =>
      rw [rowLengths, getElem?_spreadLengths_zero, hcell]
      rfl
  | some cell =>
      rw [List.getD_eq_getElem?_getD, hcell, Option.getD_some] at hj
      subst hj
      rw [getElem?_rowLengths_of_not hcell, Option.getD_some]

/-- **The runs of a grid**, along its rows or along its columns. -/
theorem freeRuns_eq (direction : RunDirection) :
    g.freeRuns direction
        = table (g.yLines.length - 1) (g.xLines.length - 1) (g.runAt direction) := by
  have hrows : g.cells.length = g.yLines.length - 1 := by have := h.rows; omega
  cases hsome : g.hasFree with
  | true =>
      simp only [freeRuns, hsome, if_true, freeCells_eq h, hrows]
      cases direction with
      | alongRows => exact runLengths_table g.widths g.freeAt
      | alongColumns =>
          dsimp only
          rw [transpose_table, runLengths_table, transpose_table]
          rfl
  | false =>
      simp only [freeRuns, hsome, Bool.false_eq_true, if_false]
      have hnone := freeAt_of_hasFree hsome
      have hzero : ∀ r c, g.runAt direction r c = 0 := by
        intro r c
        cases direction with
        | alongRows =>
            exact getD_rowLengths_eq_zero _
              ((congrFun (getD_map_range fun k _ => hnone r k) c).trans (hnone r c))
        | alongColumns =>
            exact getD_rowLengths_eq_zero _
              ((congrFun (getD_map_range fun k _ => hnone k c) r).trans (hnone r c))
      refine eq_table (by rw [List.length_map, hrows]) (fun row hrow => ?_) fun r c v hv => ?_
      · obtain ⟨cells, hcells, rfl⟩ := List.mem_map.mp hrow
        have hcolumns := h.columns cells hcells
        rw [List.length_map]
        omega
      · obtain ⟨row, hrow, hc⟩ := Option.bind_eq_some_iff.mp hv
        obtain ⟨cells, -, rfl⟩ := Option.map_eq_some_iff.mp (List.getElem?_map ▸ hrow)
        obtain ⟨cell, -, rfl⟩ := Option.map_eq_some_iff.mp (List.getElem?_map ▸ hc)
        exact hzero r c

/-! ## Between lines -/

omit h in
/-- The run of a place has the length of the gaps that it takes. -/
lemma getD_rowLengths_gaps {lines : List Rat} {free : Nat → Bool} {k : Nat}
    (hout : ∀ k, lines.length - 1 ≤ k → free k = false) (hrun : IsRun free k s e) :
    (rowLengths (offsets (gaps lines)) ((List.range (lines.length - 1)).map free)).getD k 0
      = lines.getD e 0 - lines.getD s 0 := by
  have hend := hrun.end_le hout
  have hlt := hrun.start_le.trans_lt hrun.lt_end
  rw [← getD_map_range hout] at hrun
  rw [List.getD_eq_getElem?_getD, hrun.getElem?_rowLengths, Option.getD_some,
    getD_offsets_gaps (by omega), getD_offsets_gaps (by omega), sub_sub_sub_cancel_right]

omit h in
lemma getD_rowLengths_nonneg {lines : List Rat} {free : Nat → Bool} {k : Nat}
    (hsorted : lines.Pairwise (· < ·)) (hout : ∀ k, lines.length - 1 ≤ k → free k = false)
    (hfree : free k = true) :
    0 ≤ (rowLengths (offsets (gaps lines))
        ((List.range (lines.length - 1)).map free)).getD k 0 := by
  obtain ⟨s, e, hrun⟩ := exists_isRun hfree hout
  have hend := hrun.end_le hout
  have hlt := hrun.start_le.trans_lt hrun.lt_end
  rw [getD_rowLengths_gaps hout hrun]
  exact sub_nonneg.mpr (line_mono hsorted hlt.le (by omega))

/-- **Along a row, the run of a cell is as long as the lines around it are apart.** -/
theorem runAt_alongRows (hrun : IsRun (g.freeAt r) c s e) :
    g.runAt .alongRows r c = g.xLines.getD e 0 - g.xLines.getD s 0 :=
  getD_rowLengths_gaps (fun _ hk => h.freeAt_eq_false (Or.inr hk)) hrun

/-- **Along a column, the run of a cell is as long as the lines around it are apart.** -/
theorem runAt_alongColumns (hrun : IsRun (fun r => g.freeAt r c) r s e) :
    g.runAt .alongColumns r c = g.yLines.getD e 0 - g.yLines.getD s 0 :=
  getD_rowLengths_gaps (fun _ hk => h.freeAt_eq_false (Or.inl hk)) hrun

end Rectangular

/-- Runs have no negative length. -/
lemma Shaped.runAt_nonneg (h : g.Shaped) (direction : RunDirection) (hfree : g.freeAt r c = true) :
    0 ≤ g.runAt direction r c := by
  have hrect := h.rectangular
  cases direction with
  | alongRows =>
      exact getD_rowLengths_nonneg h.xSorted (fun _ hk => hrect.freeAt_eq_false (Or.inr hk)) hfree
  | alongColumns =>
      have hout : ∀ k, g.yLines.length - 1 ≤ k → (fun r => g.freeAt r c) k = false :=
        fun _ hk => hrect.freeAt_eq_false (Or.inl hk)
      exact getD_rowLengths_nonneg h.ySorted hout hfree

end Grid

end BlockPlan
