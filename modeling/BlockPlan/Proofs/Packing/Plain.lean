import BlockPlan.Packing.Shelf
import BlockPlan.Packing.Snapshot
import BlockPlan.Proofs.Mirror
import BlockPlan.Proofs.Packing.Install

/-!
# Which blocks prefer the edge

Whether a block prefers the edge of the outline matters to a single term of the cost.  Nothing that
reshapes blocks, or packs, keeps and loads layouts, looks at it: it does to blocks without this
preference what it does to the blocks themselves.

* `Block.plain`, `Layout.plain` — a block without the preference, and a layout of such blocks.
-/

namespace BlockPlan

variable {α ρ : Type}

open Edit (Mirrors)

/-! ## Blocks -/

namespace Block

/-- The block without a preference for the edge. -/
def plain (b : Block α) : Block α := { b with prefersEdge := false }

/-- A block and the same one without a preference. -/
def Plain (b b' : Block α) : Prop := b' = b.plain

lemma setShape_plain (key : ShapeKey) :
    Mirrors (Plain (α := α)) Eq (setShape key) (setShape key) := by
  refine Mirrors.get.bind ?_
  rintro b _ rfl
  have hform : b.plain.form = b.form := rfl
  rw [hform]
  cases b.form with
  | hard w h allowed o =>
      cases key with
      | orientation o =>
          exact Mirrors.ite Iff.rfl (fun _ => Mirrors.set rfl) fun _ => Mirrors.throw _
      | candidate i => exact Mirrors.throw _
  | soft candidates index =>
      cases key with
      | orientation o => exact Mirrors.throw _
      | candidate i =>
          refine (Mirrors.set (R := Plain) rfl).bind_eq fun _ => ?_
          exact (Mirrors.ofExcept _).bind_eq fun _ => Mirrors.set rfl

lemma shrink_plain [Scalar α] (horizontal : Bool) :
    Mirrors (Plain (α := α)) Eq (shrink horizontal) (shrink horizontal) := by
  refine Mirrors.get.bind ?_
  rintro b _ rfl
  have hform : b.plain.form = b.form := rfl
  rw [hform]
  cases b.form with
  | hard w h allowed o => exact Mirrors.pure rfl
  | soft candidates index =>
      refine (Mirrors.ofExcept _).bind_eq fun current => ?_
      cases nextSmaller horizontal (sideAlong horizontal current) none 0 candidates with
      | none => exact Mirrors.pure rfl
      | some best => exact (setShape_plain _).bind_eq fun _ => Mirrors.pure rfl

variable [DrawSource ρ α]

lemma alternate_plain :
    Mirrors (Drawn.Like Plain : Drawn (Block α) ρ → Drawn (Block α) ρ → Prop) Eq
      alternate alternate := by
  refine Mirrors.get.bind ?_
  rintro ⟨b, r⟩ ⟨_, _⟩ ⟨rfl, rfl⟩
  have hform : b.plain.form = b.form := rfl
  have hkey : b.plain.shapeKey = b.shapeKey := rfl
  simp only [hform, hkey]
  cases b.form with
  | soft candidates index => exact Mirrors.pure rfl
  | hard w h allowed o =>
      refine Mirrors.ite Iff.rfl (fun _ => Mirrors.pure rfl) fun _ => ?_
      refine (Mirrors.drawBelow _).bind_eq fun i => ?_
      cases (allowed.filter (· != o))[i]? with
      | none => exact (Mirrors.throw _).bind_eq fun _ => Mirrors.pure rfl
      | some o => exact (setShape_plain _).onState.bind_eq fun _ => Mirrors.pure rfl

lemma resize_plain :
    Mirrors (Drawn.Like Plain : Drawn (Block α) ρ → Drawn (Block α) ρ → Prop) Eq resize resize := by
  refine Mirrors.get.bind ?_
  rintro ⟨b, r⟩ ⟨_, _⟩ ⟨rfl, rfl⟩
  have hform : b.plain.form = b.form := rfl
  have hkey : b.plain.shapeKey = b.shapeKey := rfl
  simp only [hform, hkey]
  cases b.form with
  | hard w h allowed o => exact Mirrors.pure rfl
  | soft candidates index =>
      refine Mirrors.ite Iff.rfl (fun _ => Mirrors.pure rfl) fun _ => ?_
      refine (Mirrors.drawBelow _).bind_eq fun i => ?_
      exact (setShape_plain _).onState.bind_eq fun _ => Mirrors.pure rfl

end Block

/-! ## Layouts -/

namespace Layout

/-- The layout with no block that prefers the edge. -/
def plain (l : Layout α) : Layout α := { l with blocks := l.blocks.map Block.plain }

/-- A layout and the same one without preferences. -/
def Plain (l l' : Layout α) : Prop := l' = l.plain

@[simp] lemma plain_pair (l : Layout α) : l.plain.pair = l.pair := rfl

@[simp] lemma plain_blocks (l : Layout α) : l.plain.blocks = l.blocks.map Block.plain := rfl

@[simp] lemma plain_size (l : Layout α) : l.plain.size = l.size := by simp [size]

@[simp] lemma plain_snapshot (l : Layout α) : l.plain.snapshot = l.snapshot := by
  simp only [snapshot, plain_blocks, plain_pair, List.map_map]
  rfl

/-! ### Sequences and single blocks -/

lemma editPair_plain (f : SequencePair → Except (Fault α) SequencePair) :
    Mirrors Plain Eq (editPair f) (editPair f) := by
  refine Mirrors.get.bind ?_
  rintro l _ rfl
  exact (Mirrors.ofExcept _).bind_eq fun _ => Mirrors.set rfl

lemma setSequences_plain (positive negative : List Int) :
    Mirrors (Plain (α := α)) Eq (setSequences positive negative)
      (setSequences positive negative) := by
  refine Mirrors.get.bind ?_
  rintro l _ rfl
  rw [plain_size]
  exact editPair_plain _

lemma setShape_plain (slot : Int) (key : ShapeKey) :
    Mirrors (Plain (α := α)) Eq (setShape slot key) (setShape slot key) := by
  have hedit : Mirrors (fun bs bs' : List (Block α) => bs' = bs.map Block.plain) Eq
      (Block.editAt slot (Block.setShape key)) (Block.editAt slot (Block.setShape key)) := by
    refine Mirrors.get.bind ?_
    rintro bs _ rfl
    rw [List.length_map]
    refine (Mirrors.ofExcept _).bind_eq fun i => ?_
    rw [List.getElem?_map]
    cases bs[i]? with
    | none => exact Mirrors.throw _
    | some b =>
        refine (Block.setShape_plain key).within (fun _ _ _ => rfl) ?_
        rintro c _ bs _ rfl rfl
        exact (List.map_set ..).symm
  refine hedit.within ?_ ?_
  · rintro l _ rfl
    rfl
  · rintro bs _ l _ rfl rfl
    rfl

lemma setShapes_plain (keys : List ShapeKey) : ∀ i : Nat,
    Mirrors (Plain (α := α)) Eq (setShapes i keys) (setShapes i keys) := by
  induction keys with
  | nil => exact fun _ => Mirrors.pure rfl
  | cons key rest ih =>
      intro i
      refine Mirrors.get.bind ?_
      rintro l _ rfl
      rw [plain_size]
      refine Mirrors.ite Iff.rfl (fun _ => ?_) fun _ => Mirrors.pure rfl
      exact (setShape_plain _ _).bind_eq fun _ => ih (i + 1)

/-! ### Packing -/

variable [Scalar α]

lemma sweep_plain (axis : Axis) (key : Nat → Int) (start : Int) (sequence : List Nat) :
    ∀ (slot : Nat) (stair : Staircase α) (blocks : List (Block α)),
      sweep axis key start slot sequence stair (blocks.map Block.plain)
        = (sweep axis key start slot sequence stair blocks).map Block.plain := by
  induction sequence with
  | nil => exact fun _ _ _ => rfl
  | cons i rest ih =>
      intro slot stair blocks
      rw [sweep, sweep, List.getElem?_map]
      cases blocks[i]? with
      | none => exact ih _ _ _
      | some b =>
          have hmoved :
              (if start ≤ slot then b.plain.moveTo axis (stair.query (key i)) else b.plain)
              = (if start ≤ slot then b.moveTo axis (stair.query (key i)) else b).plain := by
            split_ifs
            · cases axis <;> rfl
            · rfl
          simp only [Option.map_some, hmoved, ← List.map_set, ih]
          cases axis <;> rfl

@[simp] lemma plain_packX (start : Int) (l : Layout α) :
    l.plain.packX start = (l.packX start).plain := by
  simp only [packX, plain, sweep_plain]

@[simp] lemma plain_packY (start : Int) (l : Layout α) :
    l.plain.packY start = (l.packY start).plain := by
  simp only [packY, plain_size]
  simp only [plain, sweep_plain]

@[simp] lemma plain_pack (l : Layout α) : l.plain.pack = l.pack.plain := by
  simp only [pack, plain_packX, plain_packY]

omit [Scalar α] in
lemma plain_origins (l : Layout α) (blocks : List Nat) :
    l.plain.origins blocks = l.origins blocks := by
  simp only [origins, plain_blocks, List.getElem?_map, Option.map_map]
  rfl

lemma plain_hasLeft (l : Layout α) (o : Origin α) : l.plain.hasLeft o = l.hasLeft o := by
  rw [hasLeft, hasLeft, plain_blocks, List.getElem?_map]
  cases l.blocks[o.block]? <;> rfl

/-- Packing anew moves the same blocks. -/
lemma plain_repack (a b : Int) (l : Layout α) :
    l.plain.repack a b = ((l.repack a b).1, (l.repack a b).2.plain) := by
  have htouched : l.plain.touched a b = l.touched a b := by
    simp only [touched, plain_pair, plain_size]
  simp only [repack, htouched, plain_origins, plain_packX, plain_packY]
  exact congrArg (·, _) (List.filter_congr fun o _ => plain_hasLeft _ o)

omit [Scalar α] in
lemma plain_restore (origins : List (Origin α)) (l : Layout α) :
    l.plain.restore origins = (l.restore origins).plain := by
  obtain ⟨blocks, pair⟩ := l
  simp only [restore, plain, Layout.mk.injEq, and_true]
  induction origins generalizing blocks with
  | nil => rfl
  | cons o rest ih =>
      have hplace : (blocks.map Block.plain).modify o.block (Block.place o.x o.y)
          = (blocks.modify o.block (Block.place o.x o.y)).map Block.plain := by
        refine List.ext_getElem? fun i => ?_
        simp only [List.getElem?_modify, List.getElem?_map]
        cases blocks[i]? with
        | none => rfl
        | some b => split_ifs <;> rfl
      simp only [List.foldl_cons, hplace, ih]

/-! ### Loading -/

lemma load_plain (positions : Bool) (s : Snapshot α) :
    Mirrors Plain Eq (load positions s) (load positions s) := by
  refine (Mirrors.modify ?_).bind_eq fun _ => (setShapes_plain _ _).bind_eq fun _ => ?_
  · rintro l _ rfl
    simp only [plain_size]
    rfl
  · refine Mirrors.ite Iff.rfl (fun _ => Mirrors.modify ?_) fun _ => Mirrors.modify ?_
    · rintro l _ rfl
      refine congrArg (fun bs => (⟨bs, l.pair⟩ : Layout α)) (List.ext_getElem? fun i => ?_)
      simp only [plain_blocks, List.getElem?_mapIdx, List.getElem?_map, Option.map_map]
      refine congrArg (fun f => Option.map f l.blocks[i]?) (funext fun b => ?_)
      cases hi : s.points[i]? with
      | none => simp
      | some point =>
          simp only [Function.comp_apply]
          rfl
    · rintro l _ rfl
      exact plain_pack l

end Layout

/-! ## Shelves -/

namespace Shelf

/-- Blocks without preferences stand on the same shelves. -/
lemma sequences_plain (width : Rat) (blocks : List (Block Rat)) :
    sequences width (blocks.map Block.plain) = sequences width blocks :=
  sequences_map width (f := Block.plain) (fun _ => rfl) (fun _ => rfl) blocks

end Shelf

end BlockPlan
