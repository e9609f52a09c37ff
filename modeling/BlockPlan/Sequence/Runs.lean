import BlockPlan.Sequence.Bisection

/-!
# Runs

A run is a stretch of a list in which no entry precedes the one in front of it.  `runs` cuts a list
into runs: it takes what already is a run, or a strictly descending stretch turned round, and brings
it to a least length by inserting the entries that follow, each behind all entries that it does not
precede.
-/

namespace BlockPlan

variable {β : Type}

/-- The longest start of the list, whose first entry follows `last`, in which no entry precedes the
one in front of it exactly when `descends` is `false`, and every one does when it is `true`; and the
rest. -/
def splitRun (before : β → β → Bool) (descends : Bool) (last : β) : List β → List β × List β
  | [] => ([], [])
  | x :: rest =>
    if before x last == descends then
      let (run, tail) := splitRun before descends x rest
      (x :: run, tail)
    else ([], x :: rest)

/-- What a run leaves is an end of the list. -/
theorem splitRun_append (before : β → β → Bool) (descends : Bool) (last : β) (xs : List β) :
    (splitRun before descends last xs).1 ++ (splitRun before descends last xs).2 = xs := by
  induction xs generalizing last with
  | nil => rfl
  | cons x rest ih =>
    unfold splitRun
    split
    · simp [ih x]
    · rfl

/-- The run at the start of a list, in ascending order, and the rest. -/
def firstRun (before : β → β → Bool) : List β → List β × List β
  | [] => ([], [])
  | [x] => ([x], [])
  | x :: y :: rest =>
    let descends := before y x
    let (run, tail) := splitRun before descends x (y :: rest)
    (if descends then (x :: run).reverse else x :: run, tail)

/-- The run at the start and the rest hold the entries of the list. -/
theorem firstRun_perm (before : β → β → Bool) (xs : List β) :
    ((firstRun before xs).1 ++ (firstRun before xs).2).Perm xs := by
  match xs with
  | [] => rfl
  | [x] => rfl
  | x :: y :: rest =>
    have split := splitRun_append before (before y x) x (y :: rest)
    have whole : x :: (splitRun before (before y x) x (y :: rest)).1 ++
        (splitRun before (before y x) x (y :: rest)).2 = x :: y :: rest := by
      rw [List.cons_append, split]
    simp only [firstRun]
    cases h : before y x
    · rw [h] at whole
      simp [whole]
    · rw [h] at whole
      rw [if_pos rfl]
      exact ((List.reverse_perm _).append_right _).trans (.of_eq whole)

/-- A list that is not empty begins with a run that is not empty. -/
theorem length_firstRun_pos (before : β → β → Bool) (x : β) (xs : List β) :
    0 < (firstRun before (x :: xs)).1.length := by
  cases xs with
  | nil => simp [firstRun]
  | cons y rest =>
    simp only [firstRun]
    split <;> simp

/-- Puts an entry behind all entries of a sorted list that it does not precede. -/
def insertSorted (before : β → β → Bool) (xs : List β) (x : β) : List β :=
  let place := bisect .upper
    (fun p => match xs[p]? with | some y => !before x y | none => false) 0 xs.length
  xs.take place ++ x :: xs.drop place

/-- Inserting adds one entry. -/
theorem insertSorted_perm (before : β → β → Bool) (xs : List β) (x : β) :
    (insertSorted before xs x).Perm (x :: xs) := by
  unfold insertSorted
  exact List.perm_middle.trans (.of_eq (by rw [List.take_append_drop]))

/-- Cuts a list into runs of at least a given length, the last one excepted. -/
def runs (before : β → β → Bool) (least : Nat) : List β → List (List β)
  | [] => []
  | x :: xs =>
    let first := firstRun before (x :: xs)
    let short := least - first.1.length
    (first.2.take short).foldl (insertSorted before) first.1 ::
      runs before least (first.2.drop short)
termination_by xs => xs.length
decreasing_by
  have sizes := (firstRun_perm before (x :: xs)).length_eq
  have := length_firstRun_pos before x xs
  simp only [List.length_append, List.length_drop] at sizes ⊢
  omega

/-- The runs of a list hold its entries. -/
theorem runs_perm (before : β → β → Bool) (least : Nat) (xs : List β) :
    (runs before least xs).flatten.Perm xs := by
  have inserted : ∀ (added run : List β),
      (added.foldl (insertSorted before) run).Perm (run ++ added) := by
    intro added
    induction added with
    | nil => simp
    | cons x rest ih =>
      intro run
      refine (ih _).trans (((insertSorted_perm before run x).append_right rest).trans ?_)
      exact List.perm_middle.symm
  fun_induction runs before least xs with
  | case1 => exact .refl _
  | case2 x xs first short ih =>
    rw [List.flatten_cons]
    refine ((inserted _ _).append ih).trans ?_
    rw [List.append_assoc, List.take_append_drop]
    exact firstRun_perm before (x :: xs)

/-- Halves `n` until it is below sixty-four, and adds one if anything is lost on the way; `lost` is
what was lost before. -/
def halvings (lost n : Nat) : Nat :=
  if n < 64 then n + lost else halvings (max lost (n % 2)) (n / 2)
termination_by n

/-- The least length of the runs of a list with `n` entries. -/
def leastRun (n : Nat) : Nat := halvings 0 n

end BlockPlan
