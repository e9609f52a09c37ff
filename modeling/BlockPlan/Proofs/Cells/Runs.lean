import BlockPlan.Proofs.Scalar.Exact
import BlockPlan.Cells.FreeRuns

/-!
# The runs of a row

Every free place of a row lies in one run, the longest stretch of free places around it.  Starts and
ends alternate along the row, so that the run of a place has the number of the starts in front of
it, and its end has the same number among the ends.  Numbering the runs of all rows through
therefore gives every free place the length of its own run.

* `IsRun`, `exists_isRun` — the run of a free place.
* `startCount_eq_endCount` — starts and ends alternate.
* `runSizes`, **`runLengths_eq`** — no run continues from one row into the next.
* **`IsRun.getElem?_rowLengths`** — a free place has the length of its run.
-/

namespace BlockPlan

/-! ## Runs -/

/-- The free places from `s` up to `e` are the run of a place. -/
structure IsRun (free : Nat → Bool) (c s e : Nat) : Prop where
  start_le : s ≤ c
  lt_end : c < e
  inside : ∀ k, s ≤ k → k < e → free k = true
  before : s = 0 ∨ free (s - 1) = false
  behind : free e = false

section Runs

variable {free : Nat → Bool} {c : Nat}

lemma exists_run_start (hc : free c = true) :
    ∃ s ≤ c, (∀ k, s ≤ k → k ≤ c → free k = true) ∧ (s = 0 ∨ free (s - 1) = false) := by
  induction c with
  | zero => exact ⟨0, le_rfl, fun k _ hk => Nat.le_zero.mp hk ▸ hc, Or.inl rfl⟩
  | succ c ih =>
      cases hprev : free c with
      | true =>
          obtain ⟨s, hs, hfree, hbefore⟩ := ih hprev
          refine ⟨s, by omega, fun k hsk hk => ?_, hbefore⟩
          rcases Nat.le_succ_iff.mp hk with hk | rfl
          · exact hfree k hsk hk
          · exact hc
      | false =>
          refine ⟨c + 1, le_rfl, fun k hsk hk => ?_, Or.inr hprev⟩
          rwa [le_antisymm hk hsk]

/-- A free place has a run if no place is free from some place on. -/
lemma exists_isRun (hc : free c = true) {n : Nat} (hend : ∀ k, n ≤ k → free k = false) :
    ∃ s e, IsRun free c s e := by
  obtain ⟨s, hs, hfree, hbefore⟩ := exists_run_start hc
  have hexists : ∃ e, c < e ∧ free e = false := ⟨max n (c + 1), by omega, hend _ (le_max_left _ _)⟩
  obtain ⟨hlt, hbehind⟩ := Nat.find_spec hexists
  refine ⟨s, Nat.find hexists, hs, hlt, fun k hsk hk => ?_, hbefore, hbehind⟩
  rcases Nat.lt_or_ge c k with hck | hkc
  · have hnot := Nat.find_min hexists hk
    simpa [hck] using hnot
  · exact hfree k hsk hkc

lemma IsRun.end_le {s e : Nat} (h : IsRun free c s e) {n : Nat}
    (hend : ∀ k, n ≤ k → free k = false) :
    e ≤ n := by
  by_contra hlt
  have hfree := h.inside (e - 1) (by have := h.start_le; have := h.lt_end; omega)
    (by have := h.lt_end; omega)
  rw [hend _ (by omega)] at hfree
  cases hfree

end Runs

/-! ## Numbering the runs of a row -/

lemma length_filter_range (p : Nat → Bool) (n : Nat) :
    ((List.range n).filter p).length = Nat.count (fun k => p k = true) n := by
  induction n with
  | zero => rfl
  | succ n ih =>
      rw [List.range_succ, List.filter_append, List.length_append, ih, Nat.count_succ]
      cases hp : p n <;> simp [hp]

/-- A number that passes a test is found in a filtered range by how many pass in front of it. -/
lemma getElem?_filter_range {p : Nat → Bool} {m n : Nat} (hm : m < n) (hp : p m = true) :
    ((List.range n).filter p)[Nat.count (fun k => p k = true) m]? = some m := by
  obtain ⟨j, rfl⟩ := Nat.exists_eq_add_of_lt hm
  rw [show m + j + 1 = m + (j + 1) from rfl, List.range_add, List.filter_append,
    List.getElem?_append_right (length_filter_range p m).le, length_filter_range, Nat.sub_self,
    List.range_succ_eq_map, List.map_cons, Nat.add_zero, List.filter_cons_of_pos hp]
  rfl

section Numbers

variable (row : List Bool)

/-- How many runs start in front of a place. -/
def startCount (n : Nat) : Nat := Nat.count (fun k => startsAt row k = true) n

/-- How many runs end up to a place. -/
def endCount (n : Nat) : Nat := Nat.count (fun k => endsAt row k = true) n

lemma startCount_succ (n : Nat) :
    startCount row (n + 1) = startCount row n + if startsAt row n = true then 1 else 0 :=
  Nat.count_succ _ n

lemma endCount_succ (n : Nat) :
    endCount row (n + 1) = endCount row n + if endsAt row n = true then 1 else 0 :=
  Nat.count_succ _ n

/-- **Starts and ends alternate**: one more run has started than ended if the place is free. -/
theorem startCount_eq_endCount (n : Nat) :
    startCount row (n + 1) = endCount row (n + 1) + if row.getD n false = true then 1 else 0 := by
  induction n with
  | zero => simp [startCount, endCount, Nat.count_succ, startsAt, endsAt]
  | succ n ih =>
      rw [startCount_succ, endCount_succ, ih]
      simp only [startsAt, endsAt, Nat.add_sub_cancel]
      cases row.getD n false <;> cases row.getD (n + 1) false <;> simp

lemma length_runStarts : (runStarts row).length = startCount row row.length :=
    length_filter_range _ _

lemma length_runEnds : (runEnds row).length = (runStarts row).length := by
  have hbalance := startCount_eq_endCount row row.length
  have hlast : startCount row (row.length + 1) = startCount row row.length := by
    rw [startCount_succ]
    simp [startsAt]
  rw [hlast] at hbalance
  rw [length_runStarts, runEnds, length_filter_range, hbalance, endCount]
  simp

variable {row} {c s e : Nat}

lemma getD_of_length_le {k : Nat} (hk : row.length ≤ k) : row.getD k false = false := by
  rw [List.getD_eq_getElem?_getD, List.getElem?_eq_none hk, Option.getD_none]

lemma lt_length_of_getD {k : Nat} (hk : row.getD k false = true) : k < row.length := by
  by_contra hge
  rw [getD_of_length_le (not_lt.mp hge)] at hk
  cases hk

section IsRun

variable (h : IsRun (fun k => row.getD k false) c s e)

include h

lemma IsRun.startsAt : BlockPlan.startsAt row s = true := by
  have hfree := h.inside s le_rfl (h.start_le.trans_lt h.lt_end)
  rcases h.before with rfl | hbefore
  · simp_all [BlockPlan.startsAt]
  · simp_all [BlockPlan.startsAt]

lemma IsRun.endsAt : BlockPlan.endsAt row e = true := by
  have hlt := h.start_le.trans_lt h.lt_end
  have hfree := h.inside (e - 1) (by omega) (by omega)
  have hbehind := h.behind
  have hne : e ≠ 0 := by omega
  simp_all [BlockPlan.endsAt]

/-- Behind the start of a run no other one starts up to its end. -/
lemma IsRun.startCount_eq {k : Nat} (hlow : s < k) (hhigh : k ≤ e) :
    startCount row k = startCount row s + 1 := by
  induction k, hlow using Nat.le_induction with
  | base =>
      rw [startCount_succ, if_pos h.startsAt]
  | succ k hlow ih =>
      have hprev := h.inside (k - 1) (by omega) (by omega)
      have hnot : ¬ BlockPlan.startsAt row k = true := by
        have hne : k ≠ 0 := by omega
        simp_all [BlockPlan.startsAt]
      rw [startCount_succ, if_neg hnot, ih (by omega)]

lemma IsRun.endCount_eq : endCount row e = startCount row s := by
  have hlt := h.start_le.trans_lt h.lt_end
  obtain ⟨m, rfl⟩ : ∃ m, e = m + 1 := ⟨e - 1, by omega⟩
  have hbalance := startCount_eq_endCount row m
  rw [if_pos (h.inside m (by omega) m.lt_succ_self), h.startCount_eq hlt le_rfl] at hbalance
  omega

/-- The run of a place has the same number among the starts and among the ends. -/
lemma IsRun.getElem?_runStarts : (runStarts row)[startCount row s]? = some s :=
  getElem?_filter_range
    (lt_length_of_getD (h.inside s le_rfl (h.start_le.trans_lt h.lt_end))) h.startsAt

lemma IsRun.getElem?_runEnds : (runEnds row)[startCount row s]? = some e := by
  rw [← h.endCount_eq]
  exact getElem?_filter_range (Nat.lt_succ_of_le (h.end_le fun _ => getD_of_length_le)) h.endsAt

end IsRun

end Numbers

/-! ## The lengths of the runs of a row -/

/-- The lengths of the runs of a row. -/
def runSizes (line : List Rat) (row : List Bool) : List Rat :=
  List.zipWith (fun s e => line.getD e 0 - line.getD s 0) (runStarts row) (runEnds row)

/-- The length of its run for every free place of a row. -/
def rowLengths (line : List Rat) (row : List Bool) : List Rat :=
  spreadLengths (runSizes line row) row 0 0 row

lemma length_runSizes (line : List Rat) (row : List Bool) :
    (runSizes line row).length = startCount row row.length := by
  rw [runSizes, List.length_zipWith, length_runEnds, min_self, length_runStarts]

lemma length_spreadLengths (lengths : List Rat) (row : List Bool) :
    ∀ (cells : List Bool) (count p : Nat),
    (spreadLengths lengths row count p cells).length = cells.length := by
  intro cells
  induction cells with
  | nil => exact fun _ _ => rfl
  | cons cell rest ih =>
      intro count p
      rw [spreadLengths, List.length_cons, List.length_cons, ih]

/-- A free place gets the length whose number is that of the last start up to it. -/
lemma getElem?_spreadLengths (lengths : List Rat) (row : List Bool) : ∀ (cells : List Bool)
    (count p j : Nat), (spreadLengths lengths row count p cells)[j]? = (cells[j]?).map fun cell =>
      if cell then
        lengths.getD (count + Nat.count (fun k => startsAt row (p + k) = true) (j + 1) - 1) 0
      else 0 := by
  intro cells
  induction cells with
  | nil => intro count p j; rfl
  | cons cell rest ih =>
      intro count p j
      rw [spreadLengths]
      have hcount : ∀ n, (if startsAt row p = true then count + 1 else count)
          + Nat.count (fun k => startsAt row (p + 1 + k) = true) n
            = count + Nat.count (fun k => startsAt row (p + k) = true) (n + 1) := by
        intro n
        rw [Nat.count_succ']
        simp only [Nat.add_zero, Nat.add_assoc, Nat.add_comm 1]
        split_ifs <;> omega
      cases j with
      | zero =>
          have hfirst := hcount 0
          rw [Nat.count_zero, Nat.add_zero] at hfirst
          simp only [List.getElem?_cons_zero, Option.map_some, hfirst]
      | succ j =>
          rw [List.getElem?_cons_succ, List.getElem?_cons_succ, ih, hcount (j + 1)]

lemma getElem?_spreadLengths_zero (lengths : List Rat) (row : List Bool) (count j : Nat) :
    (spreadLengths lengths row count 0 row)[j]? = (row[j]?).map fun cell =>
      if cell then lengths.getD (count + startCount row (j + 1) - 1) 0 else 0 := by
  rw [getElem?_spreadLengths]
  simp only [Nat.zero_add, startCount]

lemma getD_append_window (pre post : List Rat) {own : List Rat} {i : Nat} (hi : i < own.length) :
    (pre ++ own ++ post).getD (pre.length + i) 0 = own.getD i 0 := by
  rw [List.append_assoc, List.getD_eq_getElem?_getD,
    List.getElem?_append_right (Nat.le_add_right _ _), Nat.add_sub_cancel_left,
    List.getElem?_append_left hi, List.getD_eq_getElem?_getD]

/-- Lengths of other rows, in front of those of a row or behind them, make no difference to it. -/
lemma spreadLengths_append (line pre post : List Rat) (row : List Bool) :
    spreadLengths (pre ++ runSizes line row ++ post) row pre.length 0 row
        = rowLengths line row := by
  refine List.ext_getElem? fun j => ?_
  rw [rowLengths, getElem?_spreadLengths_zero, getElem?_spreadLengths_zero]
  cases hj : row[j]? with
  | none => rfl
  | some cell =>
      cases cell with
      | false => rfl
      | true =>
          have hlt := (List.getElem?_eq_some_iff.mp hj).1
          have hbalance := startCount_eq_endCount row j
          rw [if_pos (by rw [List.getD_eq_getElem?_getD, hj]; rfl)] at hbalance
          have hle : startCount row (j + 1) ≤ startCount row row.length := Nat.count_monotone _ hlt
          have hsize := length_runSizes line row
          simp only [Option.map_some, if_true, Nat.zero_add]
          rw [Nat.add_sub_assoc (by omega), getD_append_window pre post (by omega)]

lemma zipWith_flatMap (line : List Rat) (free : List (List Bool)) :
    List.zipWith (fun s e => line.getD e 0 - line.getD s 0) (free.flatMap runStarts)
      (free.flatMap runEnds) = free.flatMap (runSizes line) := by
  induction free with
  | nil => rfl
  | cons row rest ih =>
      rw [List.flatMap_cons, List.flatMap_cons, List.zipWith_append (length_runEnds row).symm, ih,
        List.flatMap_cons]
      rfl

lemma spreadRows_eq (line : List Rat) (free : List (List Bool)) : ∀ pre : List Rat,
    spreadRows (pre ++ free.flatMap (runSizes line)) pre.length free
        = free.map (rowLengths line) := by
  induction free with
  | nil => exact fun _ => rfl
  | cons row rest ih =>
      intro pre
      have hcount : pre.length + (runStarts row).length = (pre ++ runSizes line row).length := by
        rw [List.length_append, length_runSizes, length_runStarts]
      rw [spreadRows, List.flatMap_cons, ← List.append_assoc, spreadLengths_append, hcount, ih,
        List.map_cons]

/-- **No run continues from one row into the next**: the rows have lengths of their own. -/
theorem runLengths_eq (sizes : List Rat) (free : List (List Bool)) :
    runLengths sizes free = free.map (rowLengths (offsets sizes)) := by
  have hall := spreadRows_eq (offsets sizes) free []
  rw [List.nil_append, List.length_nil] at hall
  rw [runLengths, zipWith_flatMap]
  exact hall

/-! ## The length of a run -/

section Lengths

variable {row : List Bool} {c s e : Nat}

/-- **A free place has the length of its run.** -/
theorem IsRun.getElem?_rowLengths (h : IsRun (fun k => row.getD k false) c s e) (line : List Rat) :
    (rowLengths line row)[c]? = some (line.getD e 0 - line.getD s 0) := by
  have hfree := h.inside c h.start_le h.lt_end
  have hcell : row[c]? = some true := by
    have hlt := lt_length_of_getD hfree
    rw [List.getD_eq_getElem _ _ hlt] at hfree
    rw [List.getElem?_eq_getElem hlt, hfree]
  -- the number of the run counts the starts up to the place, its own included
  have hcount := h.startCount_eq (Nat.lt_succ_of_le h.start_le) h.lt_end
  rw [rowLengths, getElem?_spreadLengths_zero, hcell, hcount, Option.map_some, if_pos rfl,
    Nat.zero_add, Nat.add_sub_cancel, runSizes, List.getD_eq_getElem?_getD, List.getElem?_zipWith,
    h.getElem?_runStarts, h.getElem?_runEnds]
  rfl

/-- A place that is not free has no length. -/
lemma getElem?_rowLengths_of_not (hcell : row[c]? = some false) (line : List Rat) :
    (rowLengths line row)[c]? = some 0 := by
  rw [rowLengths, getElem?_spreadLengths_zero, hcell]
  rfl

end Lengths

end BlockPlan
