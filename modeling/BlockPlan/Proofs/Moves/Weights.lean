import Mathlib
import BlockPlan.Moves.Table
import BlockPlan.Proofs.Edit
import BlockPlan.Proofs.Scalar.Exact

/-!
# The weights behind a table of moves

A table of moves adds up weights: these are the shares above zero, scaled down to one, or filled up
to one with turns, or with a rest that is a rounding error on the last of them.  So the weights of a
table add up to one, and the weight of a kind is the chance that the shares mean it to have.

* `MoveShares.chance` — how likely a kind is meant to be drawn, in terms of the shares.
* `MoveTable.weightOf` — the weight of a kind in a list of weights.
* `MoveTable.accumulate_increasing`, `MoveTable.stretchOf_accumulate` — what adding weights up
  gives.
* **`MoveTable.ofShares_eq_accumulate`** — shares that pass their checks make a table, and it adds
  up the chances.
-/

namespace BlockPlan

namespace MoveShares

variable {s : MoveShares Rat}

/-- The share that is given for a kind.  Shrinking and turning have none. -/
def share (s : MoveShares Rat) : MoveKind → Rat
  | .positiveSwap => s.positiveSwap
  | .negativeSwap => s.negativeSwap
  | .doubleSwap => s.doubleSwap
  | .exchange => s.exchange
  | .resize => s.resize
  | .shrink | .rotate => 0

/-- The last kind that has a share above zero. -/
def lastPositive? (s : MoveShares Rat) : Option MoveKind :=
  ((s.entries.filter fun e => decide (0 < e.2)).getLast?).map (·.1)

/-- How likely a kind is meant to be drawn.  Shares of more than one in all are scaled down.  A rest
that is more than a rounding error goes to turns, and one that is not to the last kind with a share.
-/
def chance (s : MoveShares Rat) (kind : MoveKind) : Rat :=
  if 1 < s.total then s.share kind / s.total
  else if shareTolerance < 1 - s.total then
    if kind = .rotate then 1 - s.total else s.share kind
  else if s.lastPositive? = some kind then s.share kind + (1 - s.total) else s.share kind

lemma total_eq (s : MoveShares Rat) : s.total = (s.entries.map (·.2)).sum := Scalar.sum_eq _

/-- Shares pass their checks if none is below zero and they are not all zero. -/
lemma validate_ok_iff : s.validate = .ok () ↔ (∀ e ∈ s.entries, 0 ≤ e.2) ∧ 0 < s.total := by
  rw [validate]
  cases hfind : s.entries.find? fun e => decide (e.2 < 0) with
  | some e =>
      have hnegative := List.find?_some hfind
      have hmem := List.mem_of_find?_eq_some hfind
      simp only [reduceCtorEq, false_iff, not_and]
      exact fun hnonneg => absurd (of_decide_eq_true hnegative) (not_lt.mpr (hnonneg e hmem))
  | none =>
      have hnonneg : ∀ e ∈ s.entries, 0 ≤ e.2 := by
        intro e he
        simpa using List.find?_eq_none.mp hfind e he
      by_cases htotal : s.total ≤ 0
      · simp [htotal]
      · exact iff_of_true (if_neg htotal) ⟨hnonneg, not_le.mp htotal⟩

lemma kinds_entries_nodup (s : MoveShares Rat) : (s.entries.map (·.1)).Nodup := by
  simp [entries]

lemma rotate_not_mem_entries (s : MoveShares Rat) : MoveKind.rotate ∉ s.entries.map (·.1) := by
  simp [entries]

lemma shrink_not_mem_entries (s : MoveShares Rat) : MoveKind.shrink ∉ s.entries.map (·.1) := by
  simp [entries]

/-- Shrinking is never meant to be drawn. -/
lemma chance_shrink (s : MoveShares Rat) : s.chance .shrink = 0 := by
  have hlast : s.lastPositive? ≠ some .shrink := by
    intro h
    obtain ⟨e, he, hkind⟩ := Option.map_eq_some_iff.mp h
    have hmem : e ∈ s.entries := (List.mem_filter.mp (List.mem_of_getLast? he)).1
    exact s.shrink_not_mem_entries (hkind ▸ List.mem_map_of_mem hmem)
  simp [chance, share, hlast]

/-- A kind with a share is meant to be drawn. -/
lemma chance_pos {kind : MoveKind} (hvalid : s.validate = .ok ()) (hshare : 0 < s.share kind) :
    0 < s.chance kind := by
  have htotal := (validate_ok_iff.mp hvalid).2
  rw [chance]
  split_ifs with hmore hrest hturn hlast
  · exact div_pos hshare htotal
  · exact absurd hshare (by simp [hturn, share])
  · exact hshare
  · linarith
  · exact hshare

end MoveShares

namespace MoveTable

/-! ## Weights of kinds -/

/-- The weight of the first entry of a kind, and zero without one. -/
def weightOf (kind : MoveKind) : List (MoveKind × Rat) → Rat
  | [] => 0
  | (k, p) :: rest => if k = kind then p else weightOf kind rest

section Weights

variable {kind : MoveKind} {ws : List (MoveKind × Rat)}

lemma weightOf_eq_zero (h : kind ∉ ws.map (·.1)) : weightOf kind ws = 0 := by
  induction ws with
  | nil => rfl
  | cons e rest ih =>
      rw [List.map_cons, List.mem_cons, not_or] at h
      rw [weightOf, if_neg (Ne.symm h.1), ih h.2]

lemma weightOf_append (xs ys : List (MoveKind × Rat)) :
    weightOf kind (xs ++ ys) = if kind
        ∈ xs.map (·.1) then weightOf kind xs else weightOf kind ys := by
  induction xs with
  | nil => simp
  | cons e rest ih =>
      rw [List.cons_append, weightOf, ih, List.map_cons, weightOf]
      by_cases h : e.1 = kind
      · simp [h]
      · simp only [if_neg h, List.mem_cons, Ne.symm h, false_or]

/-- What is added to the last weight is added for its kind alone. -/
lemma weightOf_raised {init : List (MoveKind × Rat)} {last : MoveKind} (h : last ∉ init.map (·.1))
    (p rest : Rat) : weightOf kind (init ++ [(last, p + rest)])
      = weightOf kind (init ++ [(last, p)]) + if last = kind then rest else 0 := by
  rw [weightOf_append, weightOf_append]
  by_cases hkind : last = kind
  · subst hkind
    simp [h, weightOf]
  · simp [hkind, weightOf]

/-- Weights of zero do not count. -/
lemma weightOf_filter (hnodup : (ws.map (·.1)).Nodup) (hnonneg : ∀ e ∈ ws, 0 ≤ e.2) :
    weightOf kind (ws.filter fun e => decide (0 < e.2)) = weightOf kind ws := by
  induction ws with
  | nil => rfl
  | cons e rest ih =>
      rw [List.map_cons, List.nodup_cons] at hnodup
      have hrest := ih hnodup.2 fun e he => hnonneg e (by simp [he])
      by_cases hpos : 0 < e.2
      · rw [List.filter_cons_of_pos (by simpa using hpos), weightOf, weightOf, hrest]
      · have hzero : e.2 = 0 := le_antisymm (not_lt.mp hpos) (hnonneg e (by simp))
        rw [List.filter_cons_of_neg (by simpa using hpos), hrest, weightOf, hzero]
        split_ifs with hkind
        · exact weightOf_eq_zero (hkind ▸ hnodup.1)
        · rfl

lemma weightOf_map_div (total : Rat) :
    weightOf kind (ws.map fun e => (e.1, e.2 / total)) = weightOf kind ws / total := by
  induction ws with
  | nil => simp [weightOf]
  | cons e rest ih =>
      rw [List.map_cons, weightOf, weightOf, ih]
      split_ifs <;> rfl

lemma weightOf_entries (s : MoveShares Rat) : weightOf kind s.entries = s.share kind := by
  cases kind <;> rfl

/-- The weights of all kinds are the weights of a list in which no kind is repeated. -/
lemma sum_weightOf (hnodup : (ws.map (·.1)).Nodup) :
    (MoveKind.all.map fun kind => weightOf kind ws).sum = (ws.map (·.2)).sum := by
  induction ws with
  | nil => simp [weightOf]
  | cons e rest ih =>
      rw [List.map_cons, List.nodup_cons] at hnodup
      have hsplit : ∀ kind, weightOf kind (e :: rest)
          = (if e.1 = kind then e.2 else 0) + weightOf kind rest := by
        intro kind
        rw [weightOf]
        split_ifs with hkind
        · rw [weightOf_eq_zero (hkind ▸ hnodup.1), add_zero]
        · rw [zero_add]
      have hsingle : (MoveKind.all.map fun kind => if e.1 = kind then e.2 else 0).sum = e.2 := by
        cases e.1 <;> simp [MoveKind.all]
      simp only [hsplit, List.sum_map_add, hsingle, ih hnodup.2, List.map_cons, List.sum_cons]

end Weights

/-! ## Adding weights up -/

section Accumulate

variable {ws : List (MoveKind × Rat)} {acc : Rat}

lemma accumulate_cons {kind : MoveKind} {p : Rat} (hp : 0 < p) :
    accumulate acc ((kind, p) :: ws) = (kind, acc + p) :: accumulate (acc + p) ws := by
  rw [accumulate, if_neg (not_le.mpr hp)]

lemma accumulate_filter :
    accumulate acc (ws.filter fun e => decide (0 < e.2)) = accumulate acc ws := by
  induction ws generalizing acc with
  | nil => rfl
  | cons e rest ih =>
      by_cases hpos : 0 < e.2
      · rw [List.filter_cons_of_pos (by simpa using hpos), accumulate_cons hpos,
          accumulate_cons hpos, ih]
      · rw [List.filter_cons_of_neg (by simpa using hpos), ih, accumulate, if_pos (not_lt.mp hpos)]

variable (hpos : ∀ e ∈ ws, 0 < e.2)

include hpos

lemma kinds_accumulate : (accumulate acc ws).map (·.1) = ws.map (·.1) := by
  induction ws generalizing acc with
  | nil => rfl
  | cons e rest ih =>
      rw [accumulate_cons (hpos e (by simp)), List.map_cons, List.map_cons,
        ih fun e he => hpos e (by simp [he])]

lemma accumulate_concat (kind : MoveKind) {p : Rat} (hp : 0 < p) :
    accumulate acc (ws ++ [(kind, p)])
      = accumulate acc ws ++ [(kind, acc + (ws.map (·.2)).sum + p)] := by
  induction ws generalizing acc with
  | nil => rw [List.nil_append, accumulate_cons hp, List.map_nil, List.sum_nil, add_zero]; rfl
  | cons e rest ih =>
      have he := hpos e (by simp)
      rw [List.cons_append, accumulate_cons he, accumulate_cons he,
        ih fun e he => hpos e (by simp [he]), List.cons_append, List.map_cons, List.sum_cons,
        add_assoc acc]

/-- Every stretch has a length. -/
lemma accumulate_increasing : (acc :: (accumulate acc ws).map (·.2)).Pairwise (· < ·) := by
  induction ws generalizing acc with
  | nil => exact List.pairwise_singleton _ _
  | cons e rest ih =>
      have he := hpos e (by simp)
      have hrest : ((acc + e.2) :: (accumulate (acc + e.2) rest).map (·.2)).Pairwise (· < ·) :=
        ih fun e he => hpos e (by simp [he])
      have hlt : acc < acc + e.2 := lt_add_of_pos_right acc he
      rw [accumulate_cons he, List.map_cons]
      refine List.pairwise_cons.mpr ⟨List.forall_mem_cons.mpr ⟨hlt, fun bound hbound => ?_⟩, hrest⟩
      exact hlt.trans ((List.pairwise_cons.mp hrest).1 bound hbound)

/-- The last bound is what the weights add up to. -/
lemma getLast?_accumulate (hsome : ws ≠ []) :
    ((accumulate acc ws).map (·.2)).getLast? = some (acc + (ws.map (·.2)).sum) := by
  rcases List.eq_nil_or_concat' ws with hnil | ⟨init, ⟨kind, p⟩, rfl⟩
  · exact absurd hnil hsome
  · rw [List.forall_mem_append, List.forall_mem_singleton] at hpos
    rw [accumulate_concat hpos.1 kind hpos.2, List.map_append, List.map_singleton,
      List.getLast?_concat, List.map_append, List.sum_append, List.map_singleton,
      List.sum_singleton, add_assoc]

/-- The stretch of a kind is as long as its weight. -/
lemma stretchOf_accumulate (kind : MoveKind) :
    stretchOf kind acc (accumulate acc ws) = weightOf kind ws := by
  induction ws generalizing acc with
  | nil => rfl
  | cons e rest ih =>
      rw [accumulate_cons (hpos e (by simp)), stretchOf, weightOf, ih fun e he =>
          hpos e (by simp [he])]
      split_ifs
      · exact add_sub_cancel_left acc e.2
      · rfl

end Accumulate

lemma closeLast_concat (entries : List (MoveKind × Rat)) (kind : MoveKind) (bound : Rat) :
    closeLast (entries ++ [(kind, bound)]) = .ok (entries ++ [(kind, 1)]) := by
  induction entries with
  | nil => rfl
  | cons e rest ih =>
      obtain ⟨e', rest', htail⟩ : ∃ e' rest', rest ++ [(kind, bound)] = e' :: rest' :=
        List.exists_cons_of_ne_nil (by simp)
      rw [List.cons_append, htail, closeLast, ← htail, ih]
      · rfl
      · simp

/-! ## The weights of a table -/

section OfShares

variable {s : MoveShares Rat}

/-- The weights of a table are the shares scaled down, the shares with the rest for turns, or the
shares. -/
lemma weighted_cases (s : MoveShares Rat) :
    (1 < s.total ∧ weighted s = s.entries.map fun e => (e.1, e.2 / s.total)) ∨
      (¬ 1 < s.total ∧ shareTolerance < 1 - s.total ∧
        weighted s = s.entries ++ [(.rotate, 1 - s.total)]) ∨
      (¬ 1 < s.total ∧ ¬ shareTolerance < 1 - s.total ∧ weighted s = s.entries) := by
  rw [weighted]
  split_ifs with hmore hless
  · exact Or.inl ⟨hmore, rfl⟩
  · exact Or.inr (Or.inl ⟨hmore, hless, rfl⟩)
  · exact Or.inr (Or.inr ⟨hmore, hless, rfl⟩)

lemma weighted_nodup (s : MoveShares Rat) : ((weighted s).map (·.1)).Nodup := by
  rcases weighted_cases s with ⟨-, hw⟩ | ⟨-, -, hw⟩ | ⟨-, -, hw⟩
  · rw [hw, List.map_map]
    exact s.kinds_entries_nodup
  · rw [hw, List.map_append, List.map_singleton, List.nodup_append_comm, List.singleton_append,
      List.nodup_cons]
    exact ⟨s.rotate_not_mem_entries, s.kinds_entries_nodup⟩
  · rw [hw]
    exact s.kinds_entries_nodup

section Valid

variable (h : s.validate = .ok ())

include h

lemma weighted_nonneg : ∀ e ∈ weighted s, 0 ≤ e.2 := by
  obtain ⟨hnonneg, hpos⟩ := MoveShares.validate_ok_iff.mp h
  rcases weighted_cases s with ⟨-, hw⟩ | ⟨hmore, -, hw⟩ | ⟨-, -, hw⟩
  · rw [hw, List.forall_mem_map]
    exact fun e he => div_nonneg (hnonneg e he) hpos.le
  · rw [hw, List.forall_mem_append, List.forall_mem_singleton]
    exact ⟨hnonneg, sub_nonneg.mpr (not_lt.mp hmore)⟩
  · rw [hw]
    exact hnonneg

/-- The weights add up to one, or to the shares where these are less by a rounding error. -/
lemma weighted_sum : ((weighted s).map (·.2)).sum
    = if ¬ 1 < s.total ∧ ¬ shareTolerance < 1 - s.total then s.total else 1 := by
  obtain ⟨-, hpos⟩ := MoveShares.validate_ok_iff.mp h
  rcases weighted_cases s with ⟨hmore, hw⟩ | ⟨-, hless, hw⟩ | ⟨hmore, hless, hw⟩
  · have hscaled : ((weighted s).map (·.2)).sum = (s.entries.map (·.2)).sum / s.total := by
      simp only [hw, List.map_map, Function.comp_def, div_eq_mul_inv, List.sum_map_mul_right]
    rw [hscaled, ← s.total_eq, div_self hpos.ne', if_neg fun h => h.1 hmore]
  · rw [hw, List.map_append, List.sum_append, ← s.total_eq, if_neg fun h => h.2 hless]
    simp
  · rw [hw, ← s.total_eq, if_pos ⟨hmore, hless⟩]

lemma weighted_sum_pos : 0 < ((weighted s).map (·.2)).sum := by
  rw [weighted_sum h]
  split_ifs
  · exact (MoveShares.validate_ok_iff.mp h).2
  · exact one_pos

lemma weighted_sum_le : ((weighted s).map (·.2)).sum ≤ 1 := by
  rw [weighted_sum h]
  split_ifs with hshares
  · exact not_lt.mp hshares.1
  · exact le_rfl

/-- The chance of a kind is its weight, and for the last kind of all what is left over as well. -/
lemma weightOf_weighted {init : List (MoveKind × Rat)} {last : MoveKind} {p : Rat}
    (hlast : (weighted s).filter (fun e => decide (0 < e.2)) = init ++ [(last, p)])
    (kind : MoveKind) :
    weightOf kind (weighted s) + (if last = kind then 1 - ((weighted s).map (·.2)).sum else 0)
      = s.chance kind := by
  rw [weighted_sum h, MoveShares.chance]
  rcases weighted_cases s with ⟨hmore, hw⟩ | ⟨hmore, hless, hw⟩ | ⟨hmore, hless, hw⟩
  · simp only [hw, weightOf_map_div, weightOf_entries, hmore, if_true, not_true_eq_false, false_and,
      if_false, sub_self, ite_self, add_zero]
  · simp only [hw, hmore, hless, weightOf_append, weightOf_entries, if_true, not_true_eq_false,
      and_false, if_false, sub_self, ite_self, add_zero]
    cases kind <;> simp [MoveShares.entries, weightOf, MoveShares.share]
  · have hlast' : s.lastPositive? = some last := by
      rw [MoveShares.lastPositive?, ← hw, hlast, List.getLast?_concat]
      rfl
    simp only [hw, hmore, hless, hlast', weightOf_entries, not_false_eq_true, and_self, if_true,
      if_false, Option.some.injEq]
    split_ifs
    · rfl
    · exact add_zero _

/-- **A table adds up weights above zero, one for every kind that it has**: the chances of these
kinds. -/
theorem ofShares_eq_accumulate : ∃ ws : List (MoveKind × Rat), ofShares s = .ok ⟨accumulate 0 ws⟩ ∧
    (∀ e ∈ ws, 0 < e.2) ∧ (ws.map (·.1)).Nodup ∧ (ws.map (·.2)).sum = 1 ∧
    ∀ kind, weightOf kind ws = s.chance kind := by
  have hnonneg := weighted_nonneg h
  have hsum := sum_filter_pos (f := fun e : MoveKind × Rat => e.2) hnonneg
  -- there is a last weight above zero, and what is left over is added to it
  rcases List.eq_nil_or_concat' ((weighted s).filter fun e : MoveKind × Rat => decide (0 < e.2))
    with hnil | ⟨init, ⟨last, p⟩, hlast⟩
  · rw [hnil] at hsum
    exact absurd hsum (weighted_sum_pos h).ne
  have hpositive : ∀ e ∈ init ++ [(last, p)], 0 < e.2 := by
    intro e he
    rw [← hlast] at he
    simpa using (List.mem_filter.mp he).2
  have hnodup : ((init ++ [(last, p)]).map (·.1)).Nodup := by
    rw [← hlast]
    exact (weighted_nodup s).sublist (List.filter_sublist.map _)
  rw [List.forall_mem_append, List.forall_mem_singleton] at hpositive
  rw [hlast, List.map_append, List.sum_append, List.map_singleton, List.sum_singleton] at hsum
  set rest := 1 - ((weighted s).map (·.2)).sum with hrest
  have hp : 0 < p + rest :=
    add_pos_of_pos_of_nonneg hpositive.2 (sub_nonneg.mpr (weighted_sum_le h))
  refine ⟨init ++ [(last, p + rest)], ?_, ?_, ?_, ?_, fun kind => ?_⟩
  · have htable : accumulate 0 (weighted s)
        = accumulate 0 init ++ [(last, 0 + (init.map (·.2)).sum + p)] := by
      rw [← accumulate_filter, hlast, accumulate_concat hpositive.1 last hpositive.2]
    have hone : 0 + (init.map (·.2)).sum + (p + rest) = 1 := by linarith
    have hclose := closeLast_concat (accumulate 0 init) last (0 + (init.map (·.2)).sum + p)
    rw [← htable] at hclose
    rw [accumulate_concat hpositive.1 last hp, hone]
    exact bind_eq_ok.mpr ⟨(), h, bind_eq_ok.mpr ⟨_, hclose, rfl⟩⟩
  · rw [List.forall_mem_append, List.forall_mem_singleton]
    exact ⟨hpositive.1, hp⟩
  · rw [List.map_append] at hnodup ⊢
    exact hnodup
  · rw [List.map_append, List.sum_append, List.map_singleton, List.sum_singleton]
    linarith
  · have hmem : last ∉ init.map (·.1) := by
      rw [List.map_append, List.map_singleton, List.nodup_append_comm, List.singleton_append,
        List.nodup_cons] at hnodup
      exact hnodup.1
    rw [weightOf_raised hmem, ← hlast, weightOf_filter (weighted_nodup s) hnonneg,
      weightOf_weighted h hlast]

end Valid

end OfShares

end MoveTable

end BlockPlan
