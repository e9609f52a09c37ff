import BlockPlan.Sequence.Gallop

/-!
# Merging two runs

`joinRuns` merges two neighbouring runs, of which the first one goes ahead among equals.  What is in
place at either end stays; the middle is merged from the side of the shorter run.

The merge takes one entry at a time until one run has won several times in a row, and then gallops:
it lets go of all entries at the head of one run that go before the head of the other.  When strides
get short, it returns to single entries.  How many wins in a row it takes to gallop is the patience
of the merge, which grows where galloping does not pay, shrinks where it does, and is handed on from
one merge to the next.
-/

namespace BlockPlan

variable {β : Type}

/-- The end of two runs at which a merge begins. -/
inductive RunEnd where
  | front | back
  deriving DecidableEq, Repr

namespace RunMerge

/-- The number of entries that make a stride long. -/
def longStride : Nat := 7

/-- How the next entries are chosen: one at a time, after as many wins in a row of either run, or in
strides. -/
inductive Pace where
  | single (aWins bWins : Nat)
  | strides

/-- A stride: how many entries of one run it took, everything that it let go, and the rest of both
runs. -/
structure Stride (β : Type) where
  count : Nat
  out : List β
  a : List β
  b : List β

/-- The stride that takes the entries of `a` that the head of `b` does not beat, and that head. -/
def strideInA (wins : β → β → Bool) (middle : Middle) (a b : List β) : Stride β :=
  match b with
  | [] => ⟨0, [], a, []⟩
  | y :: b =>
    let k := leading middle (fun x => !wins y x) a
    ⟨k, a.take k ++ [y], a.drop k, b⟩

/-- The stride that takes the entries of `b` that beat the head of `a`, and that head. -/
def strideInB (wins : β → β → Bool) (middle : Middle) (a b : List β) : Stride β :=
  match a with
  | [] => ⟨0, [], [], b⟩
  | x :: a =>
    let k := leading middle (fun y => wins y x) b
    ⟨k, b.take k ++ [x], a, b.drop k⟩

/-- The two strides of a pair. -/
inductive Turn where
  | first | second
  deriving DecidableEq, Repr

/-- A stride of a pair: the first one is in `a` from the front and in `b` from the back, the second
one in the other run. -/
def stride (start : RunEnd) (turn : Turn) (wins : β → β → Bool) (a b : List β) : Stride β :=
  match start, turn with
  | .front, .first => strideInA wins .upper a b
  | .front, .second => strideInB wins .upper a b
  | .back, .first => strideInB wins .lower a b
  | .back, .second => strideInA wins .lower a b

/-- A stride loses nothing. -/
theorem strideInA_perm (wins : β → β → Bool) (middle : Middle) (a b : List β) :
    let s := strideInA wins middle a b
    (s.out ++ (s.b ++ s.a)).Perm (b ++ a) := by
  cases b with
  | nil => simp [strideInA]
  | cons y b =>
    simp only [strideInA]
    generalize leading middle (fun x => !wins y x) a = k
    calc
      (a.take k ++ [y] ++ (b ++ a.drop k)).Perm (y :: (a.take k ++ (b ++ a.drop k))) := by
        simp
      _ |>.Perm (y :: (b ++ (a.take k ++ a.drop k))) := by
        rw [← List.append_assoc, ← List.append_assoc]
        exact (List.perm_append_comm.append_right _).cons y
      _ = y :: b ++ a := by rw [List.take_append_drop, List.cons_append]

/-- A stride loses nothing. -/
theorem strideInB_perm (wins : β → β → Bool) (middle : Middle) (a b : List β) :
    let s := strideInB wins middle a b
    (s.out ++ (s.b ++ s.a)).Perm (b ++ a) := by
  cases a with
  | nil => simp [strideInB]
  | cons x a =>
    simp only [strideInB]
    generalize leading middle (fun y => wins y x) b = k
    calc
      (b.take k ++ [x] ++ (b.drop k ++ a)).Perm (b.take k ++ (b.drop k ++ x :: a)) := by
        rw [List.append_assoc, List.singleton_append]
        exact List.perm_middle.symm.append_left _
      _ = b ++ x :: a := by rw [← List.append_assoc, List.take_append_drop]

/-- Neither stride of a pair loses anything. -/
theorem stride_perm (start : RunEnd) (turn : Turn) (wins : β → β → Bool) (a b : List β) :
    let s := stride start turn wins a b
    (s.out ++ (s.b ++ s.a)).Perm (b ++ a) := by
  cases start <;> cases turn
  case front.first | back.second => exact strideInA_perm wins _ a b
  case front.second | back.first => exact strideInB_perm wins _ a b

/-- Either stride lets an entry go. -/
theorem stride_length_lt (start : RunEnd) (turn : Turn) (wins : β → β → Bool) {a b : List β}
    (ha : a ≠ []) (hb : b ≠ []) :
    let s := stride start turn wins a b
    s.a.length + s.b.length < a.length + b.length := by
  have sizes := (stride_perm start turn wins a b).length_eq
  have out : 0 < (stride start turn wins a b).out.length := by
    obtain ⟨x, a, rfl⟩ := List.exists_cons_of_ne_nil ha
    obtain ⟨y, b, rfl⟩ := List.exists_cons_of_ne_nil hb
    cases start <;> cases turn <;> simp [stride, strideInA, strideInB]
  simp only [List.length_append] at sizes ⊢
  omega

/-- Merges two runs, where `wins y x` says that the head `y` of `b` goes before the head `x` of `a`,
and answers the patience that is left as well.  With at most one entry in `a` or none in `b` there
is nothing left to choose. -/
def mergeHeads (start : RunEnd) (wins : β → β → Bool) (patience : Nat) (pace : Pace)
    (a b : List β) : List β × Nat :=
  match a, b with
  | x :: x' :: a, y :: b =>
    match pace with
    | .single aWins bWins =>
      if wins y x then
        let pace := if patience ≤ bWins + 1 then Pace.strides else .single 0 (bWins + 1)
        (mergeHeads start wins patience pace (x :: x' :: a) b).map (y :: ·) id
      else
        let pace := if patience ≤ aWins + 1 then Pace.strides else .single (aWins + 1) 0
        (mergeHeads start wins patience pace (x' :: a) (y :: b)).map (x :: ·) id
    | .strides =>
      let s := stride start .first wins (x :: x' :: a) (y :: b)
      if _ : 1 < s.a.length ∧ s.b ≠ [] then
        let t := stride start .second wins s.a s.b
        if 1 < t.a.length ∧ t.b ≠ [] then
          let next :=
            if longStride ≤ s.count ∨ longStride ≤ t.count then (max 1 (patience - 1), Pace.strides)
            else (patience + 1, .single 0 0)
          (mergeHeads start wins next.1 next.2 t.a t.b).map
            (fun rest => s.out ++ (t.out ++ rest)) id
        else (s.out ++ (t.out ++ (t.b ++ t.a)), patience)
      else (s.out ++ (s.b ++ s.a), patience)
  | a, b => (b ++ a, patience)
termination_by a.length + b.length
decreasing_by
  · simp only [List.length_cons]; omega
  · simp only [List.length_cons]; omega
  · have first := stride_length_lt start .first wins (List.cons_ne_nil x (x' :: a))
      (List.cons_ne_nil y b)
    have rest : 1 < s.a.length ∧ s.b ≠ [] := by assumption
    have some : s.a ≠ [] := List.ne_nil_of_length_pos (by omega)
    exact Nat.lt_trans (stride_length_lt start .second wins some rest.2) first

/-- A merge loses nothing. -/
theorem mergeHeads_perm (start : RunEnd) (wins : β → β → Bool) (patience : Nat) (pace : Pace)
    (a b : List β) : (mergeHeads start wins patience pace a b).1.Perm (b ++ a) := by
  fun_induction mergeHeads start wins patience pace a b with
  | case1 patience x x' a y b aWins bWins _ _ ih => exact ih.cons y
  | case2 patience x x' a y b aWins bWins _ _ ih => exact (ih.cons x).trans List.perm_middle.symm
  | case3 patience x x' a y b s _ t _ next ih =>
    have first := stride_perm start .first wins (x :: x' :: a) (y :: b)
    have second := stride_perm start .second wins s.a s.b
    exact (((ih.append_left t.out).trans second).append_left s.out).trans first
  | case4 patience x x' a y b s _ t _ =>
    have first := stride_perm start .first wins (x :: x' :: a) (y :: b)
    have second := stride_perm start .second wins s.a s.b
    exact (second.append_left s.out).trans first
  | case5 patience x x' a y b s _ => exact stride_perm start .first wins (x :: x' :: a) (y :: b)
  | case6 => exact .refl _

/-- Merges two runs from the front, the second of which begins with the least entry. -/
def fromFront (before : β → β → Bool) (patience : Nat) (a b : List β) : List β × Nat :=
  match b with
  | [] => (a, patience)
  | y :: b => (mergeHeads .front before patience (.single 0 0) a b).map (y :: ·) id

/-- Merges two runs from the back, the first of which ends with the greatest entry. -/
def fromBack (before : β → β → Bool) (patience : Nat) (a b : List β) : List β × Nat :=
  match a.reverse with
  | [] => (b, patience)
  | x :: a =>
    (mergeHeads .back (fun x y => before y x) patience (.single 0 0) b.reverse a).map
      (fun merged => (x :: merged).reverse) id

theorem fromFront_perm (before : β → β → Bool) (patience : Nat) (a b : List β) :
    (fromFront before patience a b).1.Perm (a ++ b) := by
  cases b with
  | nil => simp [fromFront]
  | cons y b =>
    have swapped : (y :: b ++ a).Perm (a ++ y :: b) := List.perm_append_comm
    exact ((mergeHeads_perm .front before patience (.single 0 0) a b).cons y).trans swapped

theorem fromBack_perm (before : β → β → Bool) (patience : Nat) (a b : List β) :
    (fromBack before patience a b).1.Perm (a ++ b) := by
  unfold fromBack
  split
  · rename_i h
    simp [List.reverse_eq_nil_iff.mp h]
  · rename_i x c h
    have merged := mergeHeads_perm .back (fun x y => before y x) patience (.single 0 0) b.reverse c
    have whole : a.Perm (x :: c) := h ▸ (List.reverse_perm a).symm
    exact ((List.reverse_perm _).trans (merged.cons x)).trans
      (whole.symm.append (List.reverse_perm b))

end RunMerge

open RunMerge in
/-- Merges two neighbouring runs.  The entries of the first run that go before all of the second,
and those of the second that go behind all of the first, stay where they are. -/
def joinRuns (before : β → β → Bool) (patience : Nat) (a b : List β) : List β × Nat :=
  match b with
  | [] => (a, patience)
  | y :: b =>
    let ahead := leading .upper (fun x => !before y x) a
    let rest := a.drop ahead
    match rest.getLast? with
    | none => (a ++ y :: b, patience)
    | some x =>
      let behind := leading .lower (fun z => !before z x) (y :: b).reverse
      let size := b.length + 1 - behind
      let merge := if rest.length ≤ size then fromFront before else fromBack before
      (merge patience rest ((y :: b).take size)).map (a.take ahead ++ · ++ (y :: b).drop size) id

/-- Joining two runs loses nothing. -/
theorem joinRuns_perm (before : β → β → Bool) (patience : Nat) (a b : List β) :
    (joinRuns before patience a b).1.Perm (a ++ b) := by
  unfold joinRuns
  split
  · simp
  · rename_i y b
    dsimp only
    split
    · exact .refl _
    · rename_i x _
      generalize leading .upper (fun x => !before y x) a = ahead
      generalize b.length + 1 - leading .lower (fun z => !before z x) (y :: b).reverse = size
      have merged : ∀ c d, ((if (a.drop ahead).length ≤ size then RunMerge.fromFront before
          else RunMerge.fromBack before) patience c d).1.Perm (c ++ d) := by
        intro c d
        split
        · exact RunMerge.fromFront_perm before patience c d
        · exact RunMerge.fromBack_perm before patience c d
      refine (((merged _ _).append_left _).append_right _).trans (.of_eq ?_)
      simp only [List.append_assoc, List.take_append_drop]
      rw [← List.append_assoc, List.take_append_drop]

end BlockPlan
