import BlockPlan.Packing.Shelf
import BlockPlan.Proofs.Edit
import BlockPlan.Proofs.Packing.SequencePair

/-!
# Installing sequences

* `perm_of_isPermutation` — a list of slots is accepted exactly if it is a rearrangement of the
  blocks.
* `run_editPair_ok`, `run_editPair_error`, `run_setSequences_ok_iff` — what an edit of the sequence
  pair does to a layout.
* `editPair_maintains` — what such an edit keeps of it.
* `SequencePair.ofPermutations_natCast` — rearrangements of the blocks are accepted.
* **`Shelf.sequences_perm`** — the shelves hold every block once, so that their sequences are always
  accepted.
* **`Shelf.sequences_map`** — which shelves there are depends on the sides of the blocks alone.
-/

namespace BlockPlan

variable {α : Type}

namespace SequencePair

lemma perm_of_isPermutation {n : Nat} {xs : List Int} (h : isPermutation n xs = true) :
    xs.Perm ((List.range n).map fun (i : Nat) => (i : Int)) := by
  simp only [isPermutation, Bool.and_eq_true, beq_iff_eq, List.all_eq_true, List.mem_range] at h
  obtain ⟨hlength, hcount⟩ := h
  have hnodup : ((List.range n).map fun (i : Nat) => (i : Int)).Nodup :=
    List.Nodup.map (fun a b hab => Int.ofNat.inj hab) List.nodup_range
  have hsubset : ((List.range n).map fun (i : Nat) => (i : Int)) ⊆ xs := by
    intro x hx
    obtain ⟨i, hi, rfl⟩ := List.mem_map.mp hx
    refine List.count_pos_iff.mp ?_
    rw [hcount i (List.mem_range.mp hi)]
    exact Nat.one_pos
  refine ((List.subperm_of_subset hnodup hsubset).perm_of_length_le ?_).symm
  rw [List.length_map, List.length_range, hlength]

lemma isPermutation_of_perm {n : Nat} {xs : List Nat} (h : xs.Perm (List.range n)) :
    isPermutation n (xs.map fun (i : Nat) => (i : Int)) = true := by
  have hperm := h.map fun (i : Nat) => (i : Int)
  simp only [isPermutation, Bool.and_eq_true, beq_iff_eq, List.all_eq_true, List.mem_range]
  refine ⟨by rw [hperm.length_eq, List.length_map, List.length_range], fun i hi => ?_⟩
  rw [hperm.count_eq]
  refine List.count_eq_one_of_mem ?_ (List.mem_map.mpr ⟨i, List.mem_range.mpr hi, rfl⟩)
  exact List.Nodup.map (fun a b hab => Int.ofNat.inj hab) List.nodup_range

/-- Read as natural numbers, an accepted list is a rearrangement of the blocks. -/
lemma toNat_perm {n : Nat} {xs : List Int} (h : isPermutation n xs = true) :
    (xs.map Int.toNat).Perm (List.range n) := by
  have hperm := (perm_of_isPermutation h).map Int.toNat
  rw [List.map_map] at hperm
  have hid : (Int.toNat ∘ fun (i : Nat) => (i : Int)) = id := funext fun i => Int.toNat_natCast i
  rwa [hid, List.map_id] at hperm

/-- A pair is accepted exactly if both sequences are rearrangements of the blocks. -/
lemma ofPermutations_ok_iff {n : Nat} {positive negative : List Int} {p : SequencePair} :
    (ofPermutations n positive negative : Except (Fault α) SequencePair) = .ok p ↔
      (isPermutation n positive = true ∧ isPermutation n negative = true) ∧
        p = ofSequences n (positive.map Int.toNat) (negative.map Int.toNat) := by
  rw [ofPermutations]
  split_ifs with h
  · rw [Bool.and_eq_true] at h
    simp [h, eq_comm]
  · rw [Bool.and_eq_true] at h
    simp [h]

/-- Rearrangements of the blocks are accepted. -/
lemma ofPermutations_natCast {n : Nat} {positive negative : List Nat}
    (hpositive : positive.Perm (List.range n)) (hnegative : negative.Perm (List.range n)) :
    (ofPermutations n (positive.map fun (i : Nat) => (i : Int))
      (negative.map fun (i : Nat) => (i : Int))
      : Except (Fault α) SequencePair) = .ok (ofSequences n positive negative) := by
  have hid : Int.toNat ∘ (fun (i : Nat) => (i : Int)) = id := funext fun i => Int.toNat_natCast i
  refine ofPermutations_ok_iff.mpr
    ⟨⟨isPermutation_of_perm hpositive, isPermutation_of_perm hnegative⟩, ?_⟩
  simp only [List.map_map, hid, List.map_id]

lemma coherent_of_ofPermutations {n : Nat} {positive negative : List Int} {p : SequencePair}
    (h : (ofPermutations n positive negative : Except (Fault α) SequencePair) = .ok p) :
    p.Coherent n := by
  obtain ⟨⟨hpositive, hnegative⟩, rfl⟩ := ofPermutations_ok_iff.mp h
  exact coherent_ofSequences (toNat_perm hpositive) (toNat_perm hnegative)

end SequencePair

namespace Layout

lemma run_editPair_ok {f : SequencePair → Except (Fault α) SequencePair} {l : Layout α}
    {p : SequencePair} (h : f l.pair = .ok p) :
    (editPair f).run l = .ok () { l with pair := p } := by
  simp [editPair, h]

lemma run_editPair_error {f : SequencePair → Except (Fault α) SequencePair} {l : Layout α}
    {e : Fault α} (h : f l.pair = .error e) : (editPair f).run l = .error e l := by
  simp [editPair, h]

/-- The edit of a pair keeps what every pair that it puts in keeps. -/
lemma editPair_maintains {I : Layout α → Prop} {f : SequencePair → Except (Fault α) SequencePair}
    (h : ∀ l q, I l → f l.pair = .ok q → I { l with pair := q }) :
    Edit.Maintains I (editPair f) := by
  intro l hl
  cases hq : f l.pair with
  | ok q =>
      rw [run_editPair_ok hq]
      exact h l q hl hq
  | error e =>
      rw [run_editPair_error hq]
      exact hl

/-- Sequences that are installed are a coherent pair, and nothing else changes. -/
lemma run_setSequences_ok_iff {positive negative : List Int} {l l' : Layout α} :
    (setSequences positive negative).run l = .ok () l' ↔
      (SequencePair.ofPermutations l.size positive negative : Except (Fault α) SequencePair)
        = .ok l'.pair ∧ l'.blocks = l.blocks := by
  simp only [setSequences, editPair, EStateM.run_bind, EStateM.run_get]
  cases hp : (SequencePair.ofPermutations l.size positive negative
      : Except (Fault α) SequencePair) with
  | error e => simp
  | ok p =>
      obtain ⟨blocks, pair⟩ := l'
      simp only [Edit.run_ofExcept_ok, EStateM.run_set, EStateM.Result.ok.injEq, true_and,
        Except.ok.injEq, Layout.mk.injEq]
      constructor
      · rintro ⟨rfl, rfl⟩
        exact ⟨rfl, rfl⟩
      · rintro ⟨rfl, rfl⟩
        exact ⟨rfl, rfl⟩

end Layout

/-! ## Shelves -/

namespace Shelf

variable [Scalar α]

lemma cut_flatten (width : α) (blocks : List (Nat × Block α)) : ∀ (row : List Nat) (used : α),
    (cut width row used blocks).flatten = row ++ blocks.map Prod.fst := by
  induction blocks with
  | nil =>
      intro row used
      rw [cut]
      split_ifs with h
      · simp [List.isEmpty_iff.mp h]
      · simp
  | cons entry rest ih =>
      intro row used
      obtain ⟨i, b⟩ := entry
      rw [cut]
      split_ifs
      · rw [List.flatten_cons, ih, List.map_cons, List.singleton_append]
      · rw [ih, List.map_cons, List.append_assoc, List.singleton_append]

lemma shelves_perm (width : α) (blocks : List (Block α)) :
    (shelves width blocks).flatten.Perm (List.range blocks.length) := by
  rw [shelves, cut_flatten, List.nil_append]
  refine ((stableSort_perm _ _ _).map Prod.fst).trans (List.Perm.of_eq ?_)
  rw [List.map_map]
  have hfst : (Prod.fst ∘ fun (x : Block α × Nat) => (x.2, x.1)) = Prod.snd := rfl
  rw [hfst, List.zipIdx_map_snd, List.range_eq_range']

/-- **Both sequences of the shelves are rearrangements of the blocks.** -/
theorem sequences_perm (width : α) (blocks : List (Block α)) :
    (sequences width blocks).1.Perm (List.range blocks.length) ∧
      (sequences width blocks).2.Perm (List.range blocks.length) := by
  refine ⟨List.Perm.trans ?_ (shelves_perm width blocks), shelves_perm width blocks⟩
  exact (List.reverse_perm _).flatten

section Sides

variable (width : Rat) {f : Block Rat → Block Rat} (hwidth : ∀ b, (f b).width = b.width)

include hwidth

lemma cut_map (blocks : List (Nat × Block Rat)) : ∀ (row : List Nat) (used : Rat),
    cut width row used (blocks.map fun e => (e.1, f e.2)) = cut width row used blocks := by
  induction blocks with
  | nil => exact fun _ _ => rfl
  | cons e rest ih =>
      intro row used
      obtain ⟨i, b⟩ := e
      simp only [List.map_cons, cut, ih, hwidth]

/-- **The shelves depend on the sides of the blocks alone.** -/
theorem sequences_map (hheight : ∀ b, (f b).height = b.height) (blocks : List (Block Rat)) :
    sequences width (blocks.map f) = sequences width blocks := by
  have hsorted : byHeight (blocks.map f) = (byHeight blocks).map fun e => (e.1, f e.2) := by
    have hall : ∀ xs : List (Nat × Block Rat),
        xs.all (fun e => e.2.height == e.2.height) = true := by
      simp
    have hentries : (blocks.map f).zipIdx.map (fun (b, i) => (i, b))
        = (blocks.zipIdx.map fun (b, i) => (i, b)).map fun e => (e.1, f e.2) := by
      simp only [List.zipIdx_map, List.map_map]
      rfl
    simp only [byHeight, stableSort, hall, if_true, hentries]
    refine (List.map_mergeSort (f := fun e : Nat × Block Rat => (e.1, f e.2))
        fun _ _ _ _ => ?_).symm
    simp only [hheight]
  simp only [sequences, shelves, hsorted, cut_map width hwidth]

end Sides

end Shelf

end BlockPlan
