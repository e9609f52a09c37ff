import BlockPlan.Proofs.Cells.FreeRuns

/-!
# Scanning a grid for runs

Scanning a row place by place, a free place gets the sizes of all places from the start of its run
to the end together, and any other place gets zero.  The runs of a grid are numbered through and
measured between running sums instead; what they come to is that scan, whatever was written into the
grid before.

* `IsRun.unique` — a place has one run.
* `RunLength` — what scanning a row gives a place.
* `Write`, `after_rectangular` — writing into a grid leaves it a cell between any two lines.
* **`runAt_alongRows_runLength`**, **`runAt_alongColumns_runLength`** — the runs of a grid are those
  of a scan.
* **`freeRuns_scan`** — so are the lists of them, for all lines and after any writing.
-/

namespace BlockPlan

/-! ## The scan of a row -/

section Scan

variable {sizes : List Rat} {free : Nat → Bool} {k s e s' e' : Nat} {v w : Rat}

lemma IsRun.start_le_start (h : IsRun free k s e) (h' : IsRun free k s' e') : s ≤ s' := by
  by_contra hlt
  have hbefore := h.before.resolve_left (by omega)
  rw [h'.inside (s - 1) (by omega) (by have := h.start_le; have := h'.lt_end; omega)] at hbefore
  cases hbefore

lemma IsRun.end_le_end (h : IsRun free k s e) (h' : IsRun free k s' e') : e ≤ e' := by
  by_contra hlt
  have hbehind := h'.behind
  rw [h.inside e' (by have := h.start_le; have := h'.lt_end; omega) (by omega)] at hbehind
  cases hbehind

/-- **A place has one run.** -/
theorem IsRun.unique (h : IsRun free k s e) (h' : IsRun free k s' e') : s = s' ∧ e = e' :=
  ⟨(h.start_le_start h').antisymm (h'.start_le_start h),
    (h.end_le_end h').antisymm (h'.end_le_end h)⟩

lemma IsRun.isFree (h : IsRun free k s e) : free k = true := h.inside k h.start_le h.lt_end

/-- The length that a scan of the row gives a place: the sizes of its run together, which ends with
the row at the latest, and zero if the place is not free. -/
inductive RunLength (sizes : List Rat) (free : Nat → Bool) (k : Nat) : Rat → Prop
  | occupied (hfree : free k = false) : RunLength sizes free k 0
  | run {s e : Nat} (hrun : IsRun free k s e) (hend : e ≤ sizes.length) :
      RunLength sizes free k ((sizes.drop s).take (e - s)).sum

lemma RunLength.unique (h : RunLength sizes free k v) (h' : RunLength sizes free k w) : v = w := by
  cases h with
  | occupied hfree =>
      cases h' with
      | occupied => rfl
      | run hrun => exact absurd (hrun.isFree.symm.trans hfree) Bool.noConfusion
  | run hrun =>
      cases h' with
      | occupied hfree => exact absurd (hrun.isFree.symm.trans hfree) Bool.noConfusion
      | run hrun' =>
          obtain ⟨rfl, rfl⟩ := hrun.unique hrun'
          rfl

lemma RunLength.eq_iff (h : RunLength sizes free k v) : v = w ↔ RunLength sizes free k w := by
  constructor
  · rintro rfl
    exact h
  · exact h.unique

/-- The gaps from one line to another reach from the one to the other. -/
lemma sum_gaps_between {lines : List Rat} (hse : s ≤ e) (he : e < lines.length) :
    (((gaps lines).drop s).take (e - s)).sum = lines.getD e 0 - lines.getD s 0 := by
  induction e, hse using Nat.le_induction with
  | base => rw [Nat.sub_self, List.take_zero, List.sum_nil, sub_self]
  | succ e hse ih =>
      have hlt : e - s < ((gaps lines).drop s).length := by
        rw [List.length_drop, length_gaps]
        omega
      rw [Nat.sub_add_comm hse, List.sum_take_succ _ _ hlt, ih (by omega),
        List.getElem_drop, getElem_gaps]
      simp only [Nat.add_sub_cancel' hse]
      ring

/-- **Measured between running sums, a run is as long as scanned.** -/
theorem runLength_gaps {lines : List Rat} (hout : ∀ k, lines.length - 1 ≤ k → free k = false)
    (k : Nat) :
    RunLength (gaps lines) free k
      ((rowLengths (offsets (gaps lines)) ((List.range (lines.length - 1)).map free)).getD
        k 0) := by
  cases hfree : free k with
  | false =>
      rw [Grid.getD_rowLengths_eq_zero _ ((congrFun (getD_map_range hout) k).trans hfree)]
      exact .occupied hfree
  | true =>
      obtain ⟨s, e, hrun⟩ := exists_isRun hfree hout
      have hend := hrun.end_le hout
      have hlt := hrun.start_le.trans_lt hrun.lt_end
      rw [Grid.getD_rowLengths_gaps hout hrun, ← sum_gaps_between hlt.le (by omega)]
      exact .run hrun (by rwa [length_gaps])

end Scan

namespace Grid

variable {g : Grid Rat} {xLines yLines : List Rat}

/-! ## Writing into a grid -/

/-- A grid with these lines, all cells of which are free. -/
def blank (xLines yLines : List Rat) : Grid Rat :=
  ⟨xLines, yLines, List.replicate (yLines.length - 1) (List.replicate (xLines.length - 1) .free)⟩

/-- The ways to write an occupant into cells: to all that a box meets, or to a region of them. -/
inductive Write where
  | mark (b : Box Rat) (cell : Cell)
  | fill (region : Region) (cell : Cell)

/-- The grid after writing into it. -/
def Write.apply (g : Grid Rat) : Write → Grid Rat
  | mark b cell => g.mark b cell
  | fill region cell => g.fill region cell

/-- The grid after writing into it repeatedly. -/
def after (g : Grid Rat) (writes : List Write) : Grid Rat := writes.foldl Write.apply g

lemma blank_rectangular (hx : xLines ≠ []) (hy : yLines ≠ []) :
    (blank xLines yLines).Rectangular := by
  have hxpos := List.length_pos_of_ne_nil hx
  have hypos := List.length_pos_of_ne_nil hy
  refine ⟨?_, fun row hrow => ?_⟩
  · rw [blank, List.length_replicate, Nat.sub_add_cancel hypos]
  · rw [List.eq_of_mem_replicate hrow, List.length_replicate, Nat.sub_add_cancel hxpos, blank]

lemma mapRegion_rectangular (h : g.Rectangular) (f : Cell → Cell) (region : Region) :
    (g.mapRegion f region).Rectangular := by
  refine ⟨(congrArg (· + 1) (length_cells_mapRegion f region)).trans h.rows, fun row hrow => ?_⟩
  obtain ⟨old, hold, hlength⟩ := exists_row_of_mapRegion hrow
  exact hlength ▸ h.columns old hold

lemma Write.apply_rectangular (h : g.Rectangular) (write : Write) :
    (write.apply g).Rectangular ∧ (write.apply g).xLines = g.xLines ∧
      (write.apply g).yLines = g.yLines := by
  cases write with
  | mark b cell => exact ⟨mapRegion_rectangular h _ _, rfl, rfl⟩
  | fill region cell => exact ⟨mapRegion_rectangular h _ _, rfl, rfl⟩

/-- Writing keeps the lines, and the cells between them. -/
lemma after_rectangular (h : g.Rectangular) (writes : List Write) :
    (g.after writes).Rectangular ∧ (g.after writes).xLines = g.xLines ∧
      (g.after writes).yLines = g.yLines := by
  induction writes generalizing g with
  | nil => exact ⟨h, rfl, rfl⟩
  | cons write writes ih =>
      obtain ⟨hwrite, hx, hy⟩ := write.apply_rectangular h
      obtain ⟨hafter, hx', hy'⟩ := ih hwrite
      exact ⟨hafter, hx'.trans hx, hy'.trans hy⟩

/-! ## The scan of a grid -/

/-- **Along a row, a run is as long as scanned**, and does not continue in another row. -/
theorem runAt_alongRows_runLength (h : g.Rectangular) (r c : Nat) :
    RunLength g.widths (g.freeAt r) c (g.runAt .alongRows r c) :=
  runLength_gaps (fun _ hk => h.freeAt_eq_false (Or.inr hk)) c

/-- **Along a column, a run is as long as scanned**, and does not continue in another column. -/
theorem runAt_alongColumns_runLength (h : g.Rectangular) (r c : Nat) :
    RunLength g.heights (fun r => g.freeAt r c) r (g.runAt .alongColumns r c) := by
  have hout : ∀ k, g.yLines.length - 1 ≤ k → (fun r => g.freeAt r c) k = false :=
    fun _ hk => h.freeAt_eq_false (Or.inl hk)
  exact runLength_gaps hout r

lemma getElem?_freeRuns (h : g.Rectangular) (direction : RunDirection) {r c : Nat} {v : Rat} :
    (g.freeRuns direction)[r]?.bind (·[c]?) = some v ↔
      r < g.yLines.length - 1 ∧ c < g.xLines.length - 1 ∧ g.runAt direction r c = v := by
  rw [freeRuns_eq h]
  exact getElem?_table

/-- **The runs of a grid are those that scanning finds**, along rows and along columns, for all
lines and whatever was written into the cells between them. -/
theorem freeRuns_scan (hx : xLines ≠ []) (hy : yLines ≠ []) (writes : List Write) :
    let g := (blank xLines yLines).after writes
    (∀ direction, (g.freeRuns direction).length = yLines.length - 1 ∧
      ∀ row ∈ g.freeRuns direction, row.length = xLines.length - 1) ∧
    (∀ r c v, (g.freeRuns .alongRows)[r]?.bind (·[c]?) = some v ↔
      r < yLines.length - 1 ∧ c < xLines.length - 1 ∧ RunLength (gaps xLines) (g.freeAt r) c v) ∧
    ∀ r c v, (g.freeRuns .alongColumns)[r]?.bind (·[c]?) = some v ↔
      r < yLines.length - 1 ∧ c < xLines.length - 1 ∧
        RunLength (gaps yLines) (fun r => g.freeAt r c) r v := by
  intro g
  obtain ⟨h, hxg, hyg⟩ : g.Rectangular ∧ g.xLines = xLines ∧ g.yLines = yLines :=
    after_rectangular (blank_rectangular hx hy) writes
  refine ⟨?_, ?_, ?_⟩
  · intro direction
    rw [freeRuns_eq h, hxg, hyg]
    exact ⟨length_table, fun row hrow => length_of_mem_table hrow⟩
  · intro r c v
    have hscan := runAt_alongRows_runLength h r c
    rw [widths, hxg] at hscan
    rw [getElem?_freeRuns h, hxg, hyg, hscan.eq_iff]
  · intro r c v
    have hscan := runAt_alongColumns_runLength h r c
    rw [heights, hyg] at hscan
    rw [getElem?_freeRuns h, hxg, hyg, hscan.eq_iff]

/-- A block takes the cells between the second and the third line, a blockage those on the left, and
the upper cell of the block is given back: the run at the end of the lower row does not continue at
the start of the upper one. -/
theorem freeRuns_scan_striped :
    let writes : List Write :=
      [.mark ⟨1, 0, 3, 3⟩ (.owned 0), .fill ⟨(-1, 2), (0, 1)⟩ .blocked,
        .fill ⟨(1, 2), (1, 2)⟩ .free]
    let g := (blank [0, 1, 3, 6] [0, 2, 3]).after writes
    (g.freeRuns .alongRows = [[1, 0, 3], [0, 5, 5]] ∧
      g.freeRuns .alongColumns = [[2, 0, 3], [0, 1, 3]]) ∧
    (([0, 1, 3, 6] : List Rat) ≠ [] ∧ ([0, 2, 3] : List Rat) ≠ []) ∧
    (∀ r c v, (g.freeRuns .alongRows)[r]?.bind (·[c]?) = some v ↔
      r < 2 ∧ c < 3 ∧ RunLength (gaps [0, 1, 3, 6]) (g.freeAt r) c v) ∧
    ∀ r c v, (g.freeRuns .alongColumns)[r]?.bind (·[c]?) = some v ↔
      r < 2 ∧ c < 3 ∧ RunLength (gaps [0, 2, 3]) (fun r => g.freeAt r c) r v := by
  intro writes g
  have hx : ([0, 1, 3, 6] : List Rat) ≠ [] := List.cons_ne_nil _ _
  have hy : ([0, 2, 3] : List Rat) ≠ [] := List.cons_ne_nil _ _
  exact ⟨by decide +kernel, ⟨hx, hy⟩, (freeRuns_scan hx hy writes).2⟩

end Grid

end BlockPlan
