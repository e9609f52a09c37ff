import BlockPlan.Annealer.Run
import BlockPlan.Proofs.Packing.Plain

/-!
# Moves do not look at preferences

Which blocks prefer the edge decides neither over what a move does nor over what it answers, and a
layout that is reverted or installed keeps no trace of it either.

* **`makeMove_plain`** — a move of a layout without preferences is the move of the layout itself.
* `repackFrom_plain`, `revert_plain`, `installInitial_plain` — packing anew, reverting and
  installing.
-/

namespace BlockPlan

open Edit (Mirrors)

variable {α ρ : Type}

namespace Layout

lemma plain_choosable (hard : Bool) (l : Layout α) : l.plain.choosable hard = l.choosable hard := by
  simp only [choosable, plain_blocks, List.zipIdx_map, List.filter_map, List.map_map]
  rfl

lemma plain_overflowOf [Scalar α] (width height : α) (l : Layout α) (i : Nat) :
    l.plain.overflowOf width height i = l.overflowOf width height i := by
  rw [overflowOf, overflowOf, plain_blocks, List.getElem?_map]
  cases l.blocks[i]? <;> rfl

section Moves

variable [DrawSource ρ α]

/-- Beside the same draws, a layout and the same one without preferences. -/
abbrev PlainDrawn : Drawn (Layout α) ρ → Drawn (Layout α) ρ → Prop := Drawn.Like Plain

lemma twoDistinct_plain (n : Nat) :
    Mirrors (PlainDrawn (α := α) (ρ := ρ)) Eq (twoDistinct n) (twoDistinct n) :=
  (Mirrors.drawBelow _).bind_eq fun _ => (Mirrors.drawBelow _).bind_eq fun _ => Mirrors.pure rfl

lemma drawBlock_plain (pool : List Nat) :
    Mirrors (PlainDrawn (α := α) (ρ := ρ)) Eq (drawBlock pool) (drawBlock pool) := by
  refine (Mirrors.drawBelow _).bind_eq fun i => ?_
  cases pool[i]? with
  | none => exact Mirrors.throw _
  | some i => exact Mirrors.pure rfl

omit [DrawSource ρ α] in
lemma editDrawn_plain {β : Type} (i : Nat) {edit : Edit α (Drawn (Block α) ρ) β}
    (h : Mirrors (Drawn.Like Block.Plain) Eq edit edit) :
    Mirrors PlainDrawn Eq (editDrawn i edit) (editDrawn i edit) := by
  refine Mirrors.get.bind ?_
  rintro ⟨l, r⟩ ⟨_, _⟩ ⟨rfl, rfl⟩
  simp only [plain_blocks, List.getElem?_map]
  cases l.blocks[i]? with
  | none => exact Mirrors.throw _
  | some b =>
      refine h.within ?_ ?_
      · rintro ⟨_, _⟩ ⟨_, _⟩ ⟨rfl, rfl⟩
        exact ⟨rfl, rfl⟩
      · rintro ⟨c, r⟩ ⟨_, _⟩ ⟨l', r'⟩ ⟨_, _⟩ ⟨rfl, rfl⟩ ⟨rfl, rfl⟩
        refine ⟨?_, rfl⟩
        simp only [Plain, plain, List.map_set]

lemma sequenceSwap_plain (sign : Sign) (kind : MoveKind) :
    Mirrors (PlainDrawn (α := α) (ρ := ρ)) Eq (sequenceSwap sign kind)
      (sequenceSwap sign kind) := by
  refine Mirrors.get.bind ?_
  rintro ⟨l, r⟩ ⟨_, _⟩ ⟨rfl, rfl⟩
  rw [plain_size]
  refine Mirrors.ite Iff.rfl (fun _ => Mirrors.pure rfl) fun _ => ?_
  refine (twoDistinct_plain _).bind_eq fun slots => (editPair_plain _).onState.bind_eq fun _ => ?_
  refine Mirrors.get.bind ?_
  rintro ⟨l, r⟩ ⟨_, _⟩ ⟨rfl, rfl⟩
  exact Mirrors.pure rfl

lemma doubleSwap_plain : Mirrors (PlainDrawn (α := α) (ρ := ρ)) Eq doubleSwap doubleSwap :=
  (sequenceSwap_plain _ _).bind_eq fun _ =>
    (sequenceSwap_plain _ _).bind_eq fun _ => Mirrors.pure rfl

lemma exchange_plain : Mirrors (PlainDrawn (α := α) (ρ := ρ)) Eq exchange exchange := by
  refine Mirrors.get.bind ?_
  rintro ⟨l, r⟩ ⟨_, _⟩ ⟨rfl, rfl⟩
  simp only [plain_size, plain_pair]
  refine Mirrors.ite Iff.rfl (fun _ => Mirrors.pure rfl) fun _ => ?_
  refine (twoDistinct_plain _).bind_eq fun slots => (editPair_plain _).onState.bind_eq fun _ => ?_
  exact (editPair_plain _).onState.bind_eq fun _ => Mirrors.pure rfl

lemma reshape_plain (hard : Bool) (kind : MoveKind) {edit : Edit α (Drawn (Block α) ρ) ShapeKey}
    (h : Mirrors (Drawn.Like Block.Plain) Eq edit edit) :
    Mirrors (PlainDrawn (α := α) (ρ := ρ)) Eq (reshape hard kind edit)
      (reshape hard kind edit) := by
  refine Mirrors.get.bind ?_
  rintro ⟨l, r⟩ ⟨_, _⟩ ⟨rfl, rfl⟩
  simp only [plain_choosable]
  refine Mirrors.ite Iff.rfl (fun _ => sequenceSwap_plain _ _) fun _ => ?_
  refine (drawBlock_plain _).bind_eq fun i => ?_
  exact (editDrawn_plain i h).bind_eq fun _ => Mirrors.pure rfl

variable [Scalar α]

lemma shrinkBlock_plain (horizontal : Bool) :
    Mirrors (Drawn.Like Block.Plain : Drawn (Block α) ρ → Drawn (Block α) ρ → Prop) Eq
      (shrinkBlock horizontal) (shrinkBlock horizontal) := by
  refine (Block.shrink_plain horizontal).onState.bind_eq fun old => ?_
  cases old with
  | some old => exact Mirrors.pure rfl
  | none =>
      refine (Block.shrink_plain _).onState.bind_eq fun old => ?_
      cases old with
      | some old => exact Mirrors.pure rfl
      | none => exact Block.resize_plain.bind_eq fun _ => Mirrors.pure rfl

lemma shrink_plain (width height : α) :
    Mirrors (PlainDrawn (α := α) (ρ := ρ)) Eq (shrink width height) (shrink width height) := by
  refine Mirrors.get.bind ?_
  rintro ⟨l, r⟩ ⟨_, _⟩ ⟨rfl, rfl⟩
  simp only [plain_choosable, plain_overflowOf]
  refine Mirrors.ite Iff.rfl (fun _ => sequenceSwap_plain _ _) fun _ => ?_
  refine (drawBlock_plain _).bind_eq fun i => ?_
  exact (editDrawn_plain i (shrinkBlock_plain _)).bind_eq fun _ => Mirrors.pure rfl

/-- **A move of a layout without preferences is the move of the layout itself.** -/
theorem makeMove_plain (width height : α) (kind : MoveKind) :
    Mirrors (PlainDrawn (α := α) (ρ := ρ)) Eq (makeMove width height kind)
      (makeMove width height kind) := by
  cases kind with
  | positiveSwap => exact sequenceSwap_plain .positive _
  | negativeSwap => exact sequenceSwap_plain .negative _
  | doubleSwap => exact doubleSwap_plain
  | exchange => exact exchange_plain
  | resize => exact reshape_plain false .resize Block.resize_plain
  | shrink => exact shrink_plain width height
  | rotate => exact reshape_plain true .rotate Block.alternate_plain

end Moves

/-! ## Packing anew and reverting -/

lemma repackFrom_plain [Scalar α] (blocks : List Nat) :
    Mirrors (Plain (α := α)) Eq (repackFrom blocks) (repackFrom blocks) := by
  refine Mirrors.ite Iff.rfl (fun _ => Mirrors.pure rfl) fun _ => ?_
  refine Mirrors.get.bind ?_
  rintro l _ rfl
  rw [plain_pair]
  refine (Mirrors.ofExcept _).bind_eq fun (a, b) => ?_
  simp only [plain_repack]
  exact (Mirrors.set (R := Plain) rfl).bind_eq fun _ => Mirrors.pure rfl

lemma revert_plain (c : Changes) : Mirrors (Plain (α := α)) Eq (revert c) (revert c) := by
  refine (Mirrors.forM_same fun _ => editPair_plain _).bind_eq fun _ => ?_
  refine (Mirrors.forM_same fun _ => editPair_plain _).bind_eq fun _ => ?_
  exact Mirrors.forM_same fun _ => setShape_plain _ _

end Layout

/-! ## Installing -/

lemma Annealer.installInitial_plain (setup : Setup Rat) :
    Mirrors Layout.Plain Eq (installInitial setup) (installInitial setup) := by
  rw [installInitial]
  cases setup.initial with
  | some sequences => exact Layout.setSequences_plain _ _
  | none =>
      refine Mirrors.get.bind ?_
      rintro l _ rfl
      rw [Layout.plain_blocks, Shelf.sequences_plain]
      exact Layout.setSequences_plain _ _

end BlockPlan
