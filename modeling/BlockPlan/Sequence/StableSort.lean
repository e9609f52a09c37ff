import BlockPlan.Sequence.RunMerge
import BlockPlan.Sequence.Runs

/-!
# Stable sorting

`stableSort ordered before xs` sorts a list and leaves entries of which neither precedes the other
in their order.  When all entries are `ordered` there is only one such list.  Entries that are not,
such as numbers without a value, precede nothing and are preceded by nothing; where they end up is
decided by `runSort`, which cuts the list into runs and merges neighbours along a nearly balanced
tree.

The tree is built from left to right.  The boundary between two neighbouring runs has the power `k`
when the middles of the two runs, as fractions of the whole length, differ first in the `k`-th
binary place.  Boundaries are merged in the order of falling powers.
-/

namespace BlockPlan

variable {β : Type}

/-- A run that waits for its right neighbour, and the power of the boundary between them. -/
structure PendingRun (β : Type) where
  entries : List β
  start : Nat
  power : Nat

/-- The power of the boundary behind a run that starts at a place of a list of `n` entries. -/
def boundaryPower (n start size next : Nat) : Nat :=
  let middle := 2 * start + size
  let nextMiddle := middle + size + next
  ((List.range (n + 2)).find? fun k =>
    middle * Nat.pow 2 k / (2 * n) != nextMiddle * Nat.pow 2 k / (2 * n)).getD 0

/-- Merges the last run with its left neighbours across all boundaries of greater power. -/
def settle (before : β → β → Bool) (power patience : Nat) (pending : List (PendingRun β)) :
    List (PendingRun β) × Nat :=
  match pending with
  | last :: left :: rest =>
    if power < left.power then
      let (entries, patience) := joinRuns before patience left.entries last.entries
      settle before power patience ({ left with entries := entries } :: rest)
    else (last :: left :: rest, patience)
  | pending => (pending, patience)
termination_by pending.length

/-- Adds a run behind the pending ones, which are listed from the last to the first. -/
def addRun (before : β → β → Bool) (n : Nat) (state : List (PendingRun β) × Nat) (run : List β) :
    List (PendingRun β) × Nat :=
  match state.1 with
  | [] => ([⟨run, 0, 0⟩], state.2)
  | last :: _ =>
    let power := boundaryPower n last.start last.entries.length run.length
    let settled := settle before power state.2 state.1
    let bounded := match settled.1 with
      | [] => []
      | left :: rest => { left with power := power } :: rest
    (⟨run, last.start + last.entries.length, 0⟩ :: bounded, settled.2)

/-- Merges all runs that are left, listed from the last to the first.  Of the last three, the one in
the middle is merged with the shorter of its neighbours. -/
def mergeAll (before : β → β → Bool) (patience : Nat) (runs : List (List β)) : List β :=
  match runs with
  | [] => []
  | [run] => run
  | [z, y] => (joinRuns before patience y z).1
  | z :: y :: x :: rest =>
    if x.length < z.length then
      let (run, patience) := joinRuns before patience x y
      mergeAll before patience (z :: run :: rest)
    else
      let (run, patience) := joinRuns before patience y z
      mergeAll before patience (run :: x :: rest)
termination_by runs.length

/-- Sorts a list by merging its runs. -/
def runSort (before : β → β → Bool) (xs : List β) : List β :=
  let pieces := runs before (leastRun xs.length) xs
  let (pending, patience) := pieces.foldl (addRun before xs.length) ([], RunMerge.longStride)
  mergeAll before patience (pending.map PendingRun.entries)

/-- Sorts a list. -/
def stableSort (ordered : β → Bool) (before : β → β → Bool) (xs : List β) : List β :=
  if xs.all ordered then xs.mergeSort fun x y => !before y x else runSort before xs

/-! ## Nothing is lost -/

/-- The entries of pending runs from the last to the first, each run with its own. -/
def pendingEntries (pending : List (PendingRun β)) : List β :=
  (pending.map PendingRun.entries).flatten

theorem settle_perm (before : β → β → Bool) (power patience : Nat) (pending : List (PendingRun β)) :
    (pendingEntries (settle before power patience pending).1).Perm (pendingEntries pending) := by
  fun_induction settle before power patience pending with
  | case1 patience last left rest _ entries patience' h ih =>
    have joined := joinRuns_perm before patience left.entries last.entries
    rw [h] at joined
    refine ih.trans ?_
    simp only [pendingEntries, List.map_cons, List.flatten_cons, ← List.append_assoc]
    exact (joined.trans List.perm_append_comm).append_right _
  | case2 => exact .refl _
  | case3 => exact .refl _

theorem addRun_perm (before : β → β → Bool) (n : Nat) (state : List (PendingRun β) × Nat)
    (run : List β) :
    (pendingEntries (addRun before n state run).1).Perm (run ++ pendingEntries state.1) := by
  obtain ⟨pending, patience⟩ := state
  cases pending with
  | nil => simp [addRun, pendingEntries]
  | cons last rest =>
    have settled := settle_perm before
      (boundaryPower n last.start last.entries.length run.length) patience (last :: rest)
    simp only [addRun]
    generalize settle before _ patience (last :: rest) = s at settled ⊢
    refine List.Perm.append_left run ?_
    refine List.Perm.trans (.of_eq ?_) settled
    cases s.1 <;> rfl

theorem mergeAll_perm (before : β → β → Bool) (patience : Nat) (runs : List (List β)) :
    (mergeAll before patience runs).Perm runs.flatten := by
  fun_induction mergeAll before patience runs with
  | case1 => exact .refl _
  | case2 => simp
  | case3 patience z y =>
    exact (joinRuns_perm before patience y z).trans (by simpa using List.perm_append_comm)
  | case4 patience z y x rest _ run patience' h ih =>
    have joined := joinRuns_perm before patience x y
    rw [h] at joined
    refine ih.trans ?_
    simp only [List.flatten_cons, ← List.append_assoc]
    refine List.Perm.append_right _ ?_
    rw [List.append_assoc]
    exact (joined.trans List.perm_append_comm).append_left z
  | case5 patience z y x rest _ run patience' h ih =>
    have joined := joinRuns_perm before patience y z
    rw [h] at joined
    refine ih.trans ?_
    simp only [List.flatten_cons, ← List.append_assoc]
    exact ((joined.trans List.perm_append_comm).append_right _).append_right _

theorem runSort_perm (before : β → β → Bool) (xs : List β) : (runSort before xs).Perm xs := by
  have added : ∀ (pieces : List (List β)) (state : List (PendingRun β) × Nat),
      (pendingEntries (pieces.foldl (addRun before xs.length) state).1).Perm
        (pieces.flatten ++ pendingEntries state.1) := by
    intro pieces
    induction pieces with
    | nil => intro state; exact .refl _
    | cons run rest ih =>
      intro state
      refine ((ih _).trans ((addRun_perm before xs.length state run).append_left _)).trans ?_
      rw [← List.append_assoc, List.flatten_cons]
      exact List.perm_append_comm.append_right _
  have pending := added (runs before (leastRun xs.length) xs) ([], RunMerge.longStride)
  simp only [pendingEntries, List.map_nil, List.flatten_nil, List.append_nil] at pending
  exact ((mergeAll_perm before _ _).trans pending).trans (runs_perm before _ xs)

/-- Sorting loses nothing. -/
theorem stableSort_perm (ordered : β → Bool) (before : β → β → Bool) (xs : List β) :
    (stableSort ordered before xs).Perm xs := by
  unfold stableSort
  split
  · exact List.mergeSort_perm xs _
  · exact runSort_perm before xs

end BlockPlan
