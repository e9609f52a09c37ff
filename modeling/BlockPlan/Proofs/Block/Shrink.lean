import BlockPlan.Proofs.Block.Reshape
import BlockPlan.Proofs.Scalar.Exact

/-!
# The next smaller candidate

Shrinking a soft block along an axis looks through its candidates, in any order, for the largest of
those that are smaller than the one in force, and takes the first of several.  A move that shrinks a
block tries one axis and then the other one, and resizes the block if no candidate is smaller along
either of them.

* `IsNextSmaller`, **`nextSmaller_finds`** — the candidate that is looked for, and that it is found.
* **`Block.run_shrink`** — the block takes it, and stays as it is if there is none.
* `Shrinks`, **`Layout.run_shrinkBlock_shrinks`** — what a move that shrinks a block does to it.
* `Shrinks.smaller_iff` — it makes the block smaller along the first axis exactly if a candidate is.
-/

namespace BlockPlan

open Block (sideAlong nextSmaller)

/-! ## Looking for a candidate -/

/-- The candidate at a place is the next smaller one: the largest of those below a limit along an
axis, and the first of several. -/
structure IsNextSmaller (horizontal : Bool) (limit : Rat) (candidates : List (Rat × Rat)) (p : Nat)
    (s : Rat × Rat) : Prop where
  getElem? : candidates[p]? = some s
  lt : sideAlong horizontal s < limit
  greatest : ∀ e ∈ candidates, sideAlong horizontal e < limit →
    sideAlong horizontal e ≤ sideAlong horizontal s
  first : ∀ q e, q < p → candidates[q]? = some e → sideAlong horizontal e < limit →
    sideAlong horizontal e < sideAlong horizontal s

/-- No candidate lies below a limit along an axis. -/
def NoneSmaller (horizontal : Bool) (limit : Rat) (candidates : List (Rat × Rat)) : Prop :=
  ∀ e ∈ candidates, limit ≤ sideAlong horizontal e

/-- What has been found in a list of candidates: the next smaller one with its side, or that there
is none. -/
def Finds (horizontal : Bool) (limit : Rat) (candidates : List (Rat × Rat)) :
    Option (Nat × Rat) → Prop
  | none => NoneSmaller horizontal limit candidates
  | some (p, side) => ∃ s, IsNextSmaller horizontal limit candidates p s ∧
    side = sideAlong horizontal s

section Finding

variable {horizontal : Bool} {limit : Rat} {seen : List (Rat × Rat)} {c : Rat × Rat}

lemma IsNextSmaller.snoc {p : Nat} {s : Rat × Rat} (h : IsNextSmaller horizontal limit seen p s)
    (hc : sideAlong horizontal c < limit → sideAlong horizontal c ≤ sideAlong horizontal s) :
    IsNextSmaller horizontal limit (seen ++ [c]) p s := by
  have hp : p < seen.length := (List.getElem?_eq_some_iff.mp h.getElem?).1
  constructor
  case getElem? => rw [List.getElem?_append_left hp, h.getElem?]
  case lt => exact h.lt
  case greatest =>
    rw [List.forall_mem_append, List.forall_mem_singleton]
    exact ⟨h.greatest, hc⟩
  case first =>
    intro q e hq he
    rw [List.getElem?_append_left (hq.trans hp)] at he
    exact h.first q e hq he

/-- A candidate below the limit that is larger than all of those in front of it is the next smaller
one. -/
lemma isNextSmaller_last (hlt : sideAlong horizontal c < limit)
    (hall : ∀ e ∈ seen, sideAlong horizontal e < limit →
      sideAlong horizontal e < sideAlong horizontal c) :
    IsNextSmaller horizontal limit (seen ++ [c]) seen.length c := by
  constructor
  case getElem? => exact List.getElem?_concat_length
  case lt => exact hlt
  case greatest =>
    rw [List.forall_mem_append, List.forall_mem_singleton]
    exact ⟨fun e he h => (hall e he h).le, fun _ => le_rfl⟩
  case first =>
    intro q e hq he
    rw [List.getElem?_append_left hq] at he
    exact hall e (List.mem_of_getElem? he)

/-- One more candidate is found if it is below the limit and none was before. -/
lemma Finds.snoc_none (h : Finds horizontal limit seen none) : Finds horizontal limit (seen ++ [c])
    (if sideAlong horizontal c
        < limit then some (seen.length, sideAlong horizontal c) else none) := by
  split_ifs with hlt
  · refine ⟨c, isNextSmaller_last hlt ?_, rfl⟩
    intro e he hsmall
    exact absurd hsmall (not_lt.mpr (h e he))
  · show NoneSmaller horizontal limit (seen ++ [c])
    rw [NoneSmaller, List.forall_mem_append, List.forall_mem_singleton]
    exact ⟨h, not_lt.mp hlt⟩

/-- One more candidate replaces the one that was found if it is below the limit and larger. -/
lemma Finds.snoc_some {p : Nat} {side : Rat} (h : Finds horizontal limit seen (some (p, side))) :
    Finds horizontal limit (seen ++ [c])
      (if sideAlong horizontal c < limit ∧ side < sideAlong horizontal c
        then some (seen.length, sideAlong horizontal c) else some (p, side)) := by
  obtain ⟨s, hs, rfl⟩ := h
  split_ifs with hbetter
  · refine ⟨c, isNextSmaller_last hbetter.1 ?_, rfl⟩
    intro e he hsmall
    exact (hs.greatest e he hsmall).trans_lt hbetter.2
  · refine ⟨s, hs.snoc ?_, rfl⟩
    intro hlt
    rw [not_and, not_lt] at hbetter
    exact hbetter hlt

/-- **Looking through the candidates finds the next smaller one**, if there is one.  What has been
found so far is the next smaller one of those that have been seen. -/
theorem nextSmaller_finds (rest : List (Rat × Rat)) :
    ∀ {seen : List (Rat × Rat)} {best : Option (Nat × Rat)}, Finds horizontal limit seen best →
      Finds horizontal limit (seen ++ rest)
        (nextSmaller horizontal limit best seen.length rest) := by
  induction rest with
  | nil =>
      intro seen best h
      rwa [List.append_nil]
  | cons c rest ih =>
      intro seen best h
      have hsplit : seen ++ c :: rest = seen ++ [c] ++ rest := by simp
      have hlength : (seen ++ [c]).length = seen.length + 1 := by simp
      rw [hsplit]
      rcases best with _ | ⟨p, side⟩
      · have hnext := ih (h.snoc_none (c := c))
        rw [hlength] at hnext
        simpa only [nextSmaller, Bool.and_true, decide_eq_true_eq] using hnext
      · have hnext := ih (h.snoc_some (c := c))
        rw [hlength] at hnext
        simpa only [nextSmaller, Bool.and_eq_true, decide_eq_true_eq] using hnext

end Finding

/-! ## Taking a candidate -/

section Shrinking

variable {b : Block Rat} {candidates : List (Rat × Rat)} {index : Int} {current : Rat × Rat}
  {horizontal : Bool}

/-- **Shrinking puts the next smaller candidate in force**, and leaves the block as it is if there
is none. -/
theorem Block.run_shrink (hform : b.form = .soft candidates index)
    (hcurrent : Slot.get? candidates index = some current) (horizontal : Bool) :
    (NoneSmaller horizontal (sideAlong horizontal current) candidates ∧
        (shrink horizontal).run b = .ok none b) ∨
      ∃ p s c, IsNextSmaller horizontal (sideAlong horizontal current) candidates p s ∧
        b.Takes c p s ∧ (shrink horizontal).run b = .ok (some b.shapeKey) c := by
  have hentry : (Slot.entry candidates index : Except (Fault Rat) (Rat × Rat)) = .ok current := by
    rw [Slot.entry, hcurrent]
  have hstart : Finds horizontal (sideAlong horizontal current) [] none :=
    fun e he => absurd he List.not_mem_nil
  have hfinds := nextSmaller_finds candidates hstart
  rw [List.nil_append, List.length_nil] at hfinds
  cases hnext : nextSmaller horizontal (sideAlong horizontal current) none 0 candidates with
  | none =>
      rw [hnext] at hfinds
      refine Or.inl ⟨hfinds, ?_⟩
      simp only [shrink, EStateM.run_bind, EStateM.run_get, hform, hentry, Edit.run_ofExcept_ok,
        hnext, EStateM.run_pure]
  | some found =>
      rw [hnext] at hfinds
      obtain ⟨s, hs, -⟩ := hfinds
      obtain ⟨c, hrun, hc⟩ := setShape_takes hform hs.getElem?
      refine Or.inr ⟨found.1, s, c, hs, hc, ?_⟩
      simp only [shrink, EStateM.run_bind, EStateM.run_get, hform, hentry, Edit.run_ofExcept_ok,
        hnext, hrun, EStateM.run_pure, shapeKey]

/-! ## Moves that shrink a block -/

/-- What a move that shrinks a block along an axis does to it, and of which kind the move then is:
the block takes the next smaller candidate along the axis, or along the other axis if no candidate
is smaller along the first, or any other candidate if none is smaller along either. -/
inductive Shrinks (horizontal : Bool) (candidates : List (Rat × Rat)) (index : Int)
    (current : Rat × Rat) (b c : Block Rat) : MoveKind → Prop where
  | along {p : Nat} {s : Rat × Rat}
      (next : IsNextSmaller horizontal (sideAlong horizontal current) candidates p s)
      (takes : b.Takes c p s) : Shrinks horizontal candidates index current b c .shrink
  | across {p : Nat} {s : Rat × Rat}
      (none : NoneSmaller horizontal (sideAlong horizontal current) candidates)
      (next : IsNextSmaller (!horizontal) (sideAlong (!horizontal) current) candidates p s)
      (takes : b.Takes c p s) : Shrinks horizontal candidates index current b c .shrink
  | neither {p : Nat} {s : Rat × Rat}
      (none : NoneSmaller horizontal (sideAlong horizontal current) candidates)
      (noneAcross : NoneSmaller (!horizontal) (sideAlong (!horizontal) current) candidates)
      (other : candidates[p]? = some s ∧ (p : Int) ≠ index)
      (takes : b.Takes c p s) : Shrinks horizontal candidates index current b c .resize

/-- **A move that shrinks a block tries one axis, then the other one, and then resizes it.** -/
theorem Layout.run_shrinkBlock_shrinks {ρ : Type} [DrawSource ρ Rat] [LawfulDraws ρ Rat]
    (hform : b.form = .soft candidates index) (hindex : 0 ≤ index)
    (hcurrent : candidates[index.toNat]? = some current) (hlength : 2 ≤ candidates.length)
    (horizontal : Bool) (r : ρ) :
    ∃ kind c r',
      (shrinkBlock horizontal : Edit Rat (Drawn (Block Rat) ρ) (MoveKind × ShapeKey)).run ⟨b, r⟩
        = .ok (kind, b.shapeKey) ⟨c, r'⟩ ∧
      Shrinks horizontal candidates index current b c kind := by
  have hslot : Slot.get? candidates index = some current := by
    have := Slot.get?_natCast hcurrent
    rwa [Int.toNat_of_nonneg hindex] at this
  rcases Block.run_shrink hform hslot horizontal with ⟨hnone, hfirst⟩ | ⟨p, s, c, hs, hc, hfirst⟩
  · rcases Block.run_shrink hform hslot (!horizontal) with
      ⟨hnone', hsecond⟩ | ⟨p, s, c, hs, hc, hsecond⟩
    · obtain ⟨p, s, c, r', hs, hne, hc, hresize⟩ := Block.run_resize_other hform hlength r
      refine ⟨.resize, c, r', ?_, .neither hnone hnone' ⟨hs, hne⟩ hc⟩
      simp only [shrinkBlock, EStateM.run_bind, Edit.run_onState, hfirst, hsecond, hresize,
        EStateM.run_pure]
    · refine ⟨.shrink, c, r, ?_, .across hnone hs hc⟩
      simp only [shrinkBlock, EStateM.run_bind, Edit.run_onState, hfirst, hsecond, EStateM.run_pure]
  · refine ⟨.shrink, c, r, ?_, .along hs hc⟩
    simp only [shrinkBlock, EStateM.run_bind, Edit.run_onState, hfirst, EStateM.run_pure]

lemma Shrinks.reshaped {c : Block Rat} {kind : MoveKind}
    (h : Shrinks horizontal candidates index current b c kind) : b.Reshaped c := by
  cases h with
  | along next takes => exact takes.reshaped
  | across none next takes => exact takes.reshaped
  | neither none noneAcross other takes => exact takes.reshaped

lemma NoneSmaller.le {limit : Rat} {p : Nat} {s : Rat × Rat}
    (h : NoneSmaller horizontal limit candidates) (hs : candidates[p]? = some s) :
    limit ≤ sideAlong horizontal s :=
  h s (List.mem_of_getElem? hs)

/-- A move that shrinks a block is one that shrinks, and makes the block smaller along the axis,
exactly if a candidate is smaller along the axis. -/
lemma Shrinks.smaller_iff {c : Block Rat} {kind : MoveKind}
    (h : Shrinks horizontal candidates index current b c kind) :
    (kind = .shrink ∧ sideAlong horizontal (c.width, c.height) < sideAlong horizontal current) ↔
      ∃ e ∈ candidates, sideAlong horizontal e < sideAlong horizontal current := by
  cases h with
  | along next takes =>
      have hlt := next.lt
      rw [← takes.sides] at hlt
      exact iff_of_true ⟨rfl, hlt⟩ ⟨_, List.mem_of_getElem? next.getElem?, next.lt⟩
  | across none next takes =>
      have hle := none.le next.getElem?
      rw [← takes.sides] at hle
      exact iff_of_false (fun h => absurd h.2 (not_lt.mpr hle)) fun ⟨e, he, hlt⟩ =>
        absurd hlt (not_lt.mpr (none e he))
  | neither none noneAcross other takes =>
      exact iff_of_false (fun h => nomatch h.1) fun ⟨e, he, hlt⟩ =>
        absurd hlt (not_lt.mpr (none e he))

end Shrinking

end BlockPlan
