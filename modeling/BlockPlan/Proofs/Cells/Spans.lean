import BlockPlan.Proofs.Cells.Lines

/-!
# The cells that a span meets

Lines bound cells, one from every line to the next.  The start of a span is rounded down to a line
and its end up to one, so that a span from a start to an end behind it has exactly the cells whose
inside it meets.  A span of no length, or one that runs backwards, meets nothing; but if both of its
ends lie inside one cell, they are rounded to the two lines of this cell, and the span has the cell
all the same.

* `Meets`, `Encloses` — the inside of a cell and the inside of a span have a point in common, or a
  cell has both ends of a span inside.
* **`mem_cellRange_iff`** — the cells of a span are those that it meets and the one that encloses
  it.
* `Spanned`, **`cellRange_spanned`** — what this comes to for spans that run forwards, for all
  others, and outside the grid.
* `cellRange_midpoint` — a point inside a cell meets nothing and has the cell.
-/

namespace BlockPlan

section Cells

variable (lines : List Rat) (start finish : Rat) (k : Nat)

/-- The inside of cell `k` and the inside of a span have a point in common. -/
def Meets : Prop :=
  ∃ a b, lines[k]? = some a ∧ lines[k + 1]? = some b ∧ (Set.Ioo a b ∩ Set.Ioo start finish).Nonempty

/-- Both ends of a span lie inside cell `k`. -/
def Encloses : Prop :=
  ∃ a b, lines[k]? = some a ∧ lines[k + 1]? = some b ∧ start ∈ Set.Ioo a b ∧ finish ∈ Set.Ioo a b

end Cells

section Spans

variable {lines : List Rat} {start finish : Rat} {k : Nat}

lemma Meets.lt (h : Meets lines start finish k) : start < finish := by
  obtain ⟨_, _, -, -, _, -, hspan⟩ := h
  exact hspan.1.trans hspan.2

/-- A span that runs forwards inside a cell meets it. -/
lemma Encloses.meets (h : Encloses lines start finish k) (hlt : start < finish) :
    Meets lines start finish k := by
  obtain ⟨a, b, ha, hb, hstart, hfinish⟩ := h
  obtain ⟨x, hx⟩ := Set.nonempty_Ioo.mpr hlt
  exact ⟨a, b, ha, hb, x, ⟨hstart.1.trans hx.1, hx.2.trans hfinish.2⟩, hx⟩

/-- A cell that a span meets, or that encloses it, ends behind its start and starts in front of its
end. -/
lemma exists_lines (h : Meets lines start finish k ∨ Encloses lines start finish k) :
    ∃ a b, lines[k]? = some a ∧ lines[k + 1]? = some b ∧ start < b ∧ a < finish := by
  rcases h with ⟨a, b, ha, hb, x, hcell, hspan⟩ | ⟨a, b, ha, hb, hstart, hfinish⟩
  · exact ⟨a, b, ha, hb, hspan.1.trans hcell.2, hcell.1.trans hspan.2⟩
  · exact ⟨a, b, ha, hb, hstart.2, hfinish.1⟩

/-- A span that lies beyond either end of the grid meets no cell, and none encloses it. -/
lemma not_meets_or_encloses (h : (∀ x ∈ lines, finish ≤ x) ∨ ∀ x ∈ lines, x ≤ start) :
    ¬ (Meets lines start finish k ∨ Encloses lines start finish k) := by
  intro hcell
  obtain ⟨a, b, ha, hb, hbehind, hbefore⟩ := exists_lines hcell
  rcases h with hleft | hright
  · exact (hleft a (List.mem_of_getElem? ha)).not_gt hbefore
  · exact (hright b (List.mem_of_getElem? hb)).not_gt hbehind

variable (hsorted : lines.Pairwise (· < ·))

include hsorted

/-- A cell that ends behind the start of a span and starts in front of its end is met by it if it
runs forwards, and encloses it if it does not. -/
lemma meets_or_encloses {a b : Rat} (ha : lines[k]? = some a) (hb : lines[k + 1]? = some b)
    (hbehind : start < b) (hbefore : a < finish) :
    Meets lines start finish k ∨ Encloses lines start finish k := by
  rcases lt_or_ge start finish with hlt | hge
  · have hab : a < b := (line_lt_iff hsorted ha hb).mpr k.lt_succ_self
    refine Or.inl ⟨a, b, ha, hb, ?_⟩
    rw [Set.Ioo_inter_Ioo, Set.nonempty_Ioo]
    exact max_lt (lt_min hab hbefore) (lt_min hbehind hlt)
  · exact Or.inr ⟨a, b, ha, hb, ⟨hbefore.trans_le hge, hbehind⟩, hbefore, hge.trans_lt hbehind⟩

/-- At most one cell encloses a span. -/
lemma Encloses.unique {j : Nat} (h : Encloses lines start finish j)
    (h' : Encloses lines start finish k) : j = k := by
  obtain ⟨a, b, ha, hb, hstart, -⟩ := h
  obtain ⟨a', b', ha', hb', hstart', -⟩ := h'
  have hfirst := (line_lt_iff hsorted ha hb').mp (hstart.1.trans hstart'.2)
  have hsecond := (line_lt_iff hsorted ha' hb).mp (hstart'.1.trans hstart.2)
  omega

/-- **The cells of a span are those that it meets and the one that encloses it.** -/
theorem mem_cellRange_iff (hne : lines ≠ []) (start finish : Rat) (i : Int) :
    (cellRange start finish lines).1 ≤ i ∧ i < (cellRange start finish lines).2 ↔
      ∃ k : Nat, i = k ∧ (Meets lines start finish k ∨ Encloses lines start finish k) := by
  obtain ⟨hnonneg, -, hlast⟩ := cellRange_bounds start finish hne
  constructor
  · rintro ⟨hfirst, hlt⟩
    obtain ⟨k, rfl⟩ := Int.eq_ofNat_of_zero_le (hnonneg.trans hfirst)
    have ha := List.getElem?_eq_getElem (l := lines) (i := k) (by omega)
    have hb := List.getElem?_eq_getElem (l := lines) (i := k + 1) (by omega)
    obtain ⟨hbehind, hbefore⟩ := (cellRange_spec hsorted start finish ha hb).mp ⟨hfirst, hlt⟩
    exact ⟨k, rfl, meets_or_encloses hsorted ha hb hbehind hbefore⟩
  · rintro ⟨k, rfl, hcell⟩
    obtain ⟨a, b, ha, hb, hends⟩ := exists_lines hcell
    exact (cellRange_spec hsorted start finish ha hb).mpr hends

end Spans

/-- The cells from the first up to the second number of a range are those of a span: the ones that
it meets, if it runs forwards; the one that encloses it, if there is one, for any other span; and
none outside the grid. -/
structure Spanned (lines : List Rat) (start finish : Rat) (range : Int × Int) : Prop where
  le : range.1 ≤ range.2
  forwards : start < finish →
    ∀ i : Int, range.1 ≤ i ∧ i < range.2 ↔ ∃ k : Nat, i = k ∧ Meets lines start finish k
  otherwise : finish ≤ start → (range.1 = range.2 ∧ ∀ k, ¬ Encloses lines start finish k) ∨
    ∃ k : Nat, Encloses lines start finish k ∧ range = ((k : Int), (k : Int) + 1)
  outside : ((∀ x ∈ lines, finish ≤ x) ∨ ∀ x ∈ lines, x ≤ start) → range.1 = range.2

/-- **A span from a start to an end behind it has exactly the cells that it meets; any other one has
no cell, unless a cell encloses it.** -/
theorem cellRange_spanned {lines : List Rat} (hsorted : lines.Pairwise (· < ·)) (hne : lines ≠ [])
    (start finish : Rat) : Spanned lines start finish (cellRange start finish lines) := by
  obtain ⟨-, hle, -⟩ := cellRange_bounds start finish hne
  have hmem := mem_cellRange_iff hsorted hne start finish
  generalize cellRange start finish lines = range at hle hmem ⊢
  obtain ⟨first, last⟩ := range
  constructor
  case le => exact hle
  case forwards =>
    intro hlt i
    have hmeets : ∀ k, Meets lines start finish k ∨ Encloses lines start finish k
        ↔ Meets lines start finish k := by
      intro k
      rw [or_iff_left_iff_imp]
      intro hencloses
      exact hencloses.meets hlt
    rw [hmem]
    simp only [hmeets]
  case otherwise =>
    intro hge
    have hnone : ∀ k, ¬ Meets lines start finish k := fun k h => hge.not_gt h.lt
    simp only [hnone, false_or] at hmem
    rcases hle.eq_or_lt with heq | hlt
    · refine Or.inl ⟨heq, ?_⟩
      intro k hk
      have := (hmem k).mpr ⟨k, rfl, hk⟩
      omega
    · -- the first and the last cell of the span enclose it, so that they are the same
      obtain ⟨k, rfl, hk⟩ := (hmem first).mp ⟨le_rfl, hlt⟩
      obtain ⟨j, hj, hencloses⟩ := (hmem (last - 1)).mp ⟨by omega, by omega⟩
      obtain rfl := Encloses.unique hsorted hencloses hk
      have hlast : last = (j : Int) + 1 := by omega
      exact Or.inr ⟨j, hk, by rw [hlast]⟩
  case outside =>
    intro hout
    by_contra hcells
    obtain ⟨k, -, hk⟩ := (hmem first).mp ⟨le_rfl, lt_of_le_of_ne hle hcells⟩
    exact not_meets_or_encloses hout hk

/-- Three cells, with a span that meets all of them, one that runs backwards over a cell, and one
that runs backwards inside a cell. -/
theorem cellRange_spanned_threeCells :
    (([0, 10, 20, 30] : List Rat).Pairwise (· < ·) ∧ ([0, 10, 20, 30] : List Rat) ≠ []) ∧
      Spanned [0, 10, 20, 30] 5 25 (0, 3) ∧ Spanned [0, 10, 20, 30] 20 10 (2, 2) ∧
      Spanned [0, 10, 20, 30] 15 12 (1, 2) := by
  have hsorted : ([0, 10, 20, 30] : List Rat).Pairwise (· < ·) := by decide +kernel
  have hne : ([0, 10, 20, 30] : List Rat) ≠ [] := by simp
  have hover : cellRange 5 25 ([0, 10, 20, 30] : List Rat) = (0, 3) := by decide +kernel
  have hback : cellRange 20 10 ([0, 10, 20, 30] : List Rat) = (2, 2) := by decide +kernel
  have hinside : cellRange 15 12 ([0, 10, 20, 30] : List Rat) = (1, 2) := by decide +kernel
  refine ⟨⟨hsorted, hne⟩, ?_, ?_, ?_⟩
  · rw [← hover]
    exact cellRange_spanned hsorted hne 5 25
  · rw [← hback]
    exact cellRange_spanned hsorted hne 20 10
  · rw [← hinside]
    exact cellRange_spanned hsorted hne 15 12

/-- A point inside a cell meets nothing, and yet it has the cell. -/
theorem cellRange_midpoint :
    ([0, 10] : List Rat).Pairwise (· < ·) ∧ (∀ k, ¬ Meets [0, 10] 5 5 k) ∧
      cellRange 5 5 ([0, 10] : List Rat) = (0, 1) := by
  refine ⟨by decide +kernel, ?_, by decide +kernel⟩
  intro k hmeets
  exact lt_irrefl _ hmeets.lt

end BlockPlan
