import BlockPlan.Proofs.Packing.Sound

/-!
# Keyed layouts

Filling dead space stretches blocks beyond the shapes that they have to choose from, and from then
on a layout is not sound any more.  What is left is that it is *keyed*: its pair is coherent, its
blocks have the makeups that are known, and every block lists the key of the shape in force.  A
snapshot holds the keys alone, so that loading it gives the blocks back in the shapes of their keys.

* `Block.inShape` — a block with the sides of the shape in force.
* `Keyed`, `Keyed.setBlocks` — keyed layouts, and what keeps them keyed.
* **`run_load_keyed`** — loading the snapshot of a keyed layout gives it back with all blocks in
  shape.
* `Closed` — a property of layouts that changes of pair and shapes keep.
-/

namespace BlockPlan

variable {α : Type}

namespace Block

/-- The block with the sides of the shape in force. -/
def inShape (b : Block α) : Block α :=
  match b.form with
  | .hard w h _ o => { b with width := (orientedSides w h o).1, height := (orientedSides w h o).2 }
  | .soft candidates index =>
    match candidates[index.toNat]? with
    | some c => { b with width := c.1, height := c.2 }
    | none => b

/-- Only the sides of a block are brought into shape. -/
lemma inShape_eq (b : Block α) :
    b.inShape = { b with width := b.inShape.width, height := b.inShape.height } := by
  rw [inShape]
  split
  · rfl
  · split <;> rfl

@[simp] lemma inShape_makeup (b : Block α) : b.inShape.makeup = b.makeup := by
  rw [inShape_eq]
  rfl

@[simp] lemma inShape_shapeKey (b : Block α) : b.inShape.shapeKey = b.shapeKey := by
  rw [inShape_eq]
  rfl

@[simp] lemma inShape_x (b : Block α) : b.inShape.x = b.x := by rw [inShape_eq]

@[simp] lemma inShape_y (b : Block α) : b.inShape.y = b.y := by rw [inShape_eq]

lemma inShape_showsShape {b : Block α} (h : b.Lists b.shapeKey) : b.inShape.ShowsShape := by
  obtain ⟨_, form, _, _, _, _, _⟩ := b
  cases form with
  | hard w hh allowed o => exact ⟨h, rfl⟩
  | soft candidates index =>
      obtain ⟨hindex, hlt⟩ := h
      simp only [inShape, List.getElem?_eq_getElem hlt]
      exact ⟨hindex, List.getElem?_eq_getElem hlt⟩

/-- A block that shows its shape is in shape. -/
lemma ShowsShape.inShape {b : Block α} (h : b.ShowsShape) : b.inShape = b :=
  eq_of_shapeKey (inShape_showsShape h.lists) h (inShape_makeup b)
    (inShape_shapeKey b) (inShape_x b) (inShape_y b)

/-- The same block as another one, with a shape key that it lists. -/
def Rekeyed (b c : Block α) : Prop := c.makeup = b.makeup ∧ c.Lists c.shapeKey

/-- A block whose position and sides alone have changed. -/
lemma Rekeyed.of_same {b c : Block α} (hb : b.Lists b.shapeKey) (hmakeup : c.makeup = b.makeup)
    (hkey : c.shapeKey = b.shapeKey) : Rekeyed b c := by
  refine ⟨hmakeup, ?_⟩
  rw [hkey]
  exact hb.congr hmakeup

lemma Reshaped.rekeyed {b c : Block α} (h : Reshaped b c) : Rekeyed b c :=
  ⟨h.makeup, h.showsShape.lists⟩

end Block

namespace Layout

variable {known : Makeups α} {l : Layout α}

/-- A layout of blocks of given makeups that list their shape keys, with a coherent pair. -/
structure Keyed (known : Makeups α) (l : Layout α) : Prop where
  coherent : l.Coherent
  lists : ∀ b ∈ l.blocks, b.Lists b.shapeKey
  makeups : l.blocks.map Block.makeup = known

lemma Sound.keyed (h : l.Sound known) : l.Keyed known :=
  ⟨h.coherent, fun b hb => (h.showsShape b hb).lists, h.makeups⟩

lemma Keyed.sound (h : l.Keyed known) (hshows : ∀ b ∈ l.blocks, b.ShowsShape) : l.Sound known :=
  ⟨h.coherent, hshows, h.makeups⟩

lemma Keyed.size (h : l.Keyed known) : l.size = known.length := by
  rw [← h.makeups, List.length_map, Layout.size]

lemma Keyed.getElem?_lists (h : l.Keyed known) {i : Nat} {b : Block α}
    (hb : l.blocks[i]? = some b) :
    b.Lists b.shapeKey :=
  h.lists b (List.mem_of_getElem? hb)

lemma Keyed.setPair {q : SequencePair} (h : l.Keyed known) (hq : q.Coherent l.size) :
    Keyed known { l with pair := q } :=
  ⟨hq, h.lists, h.makeups⟩

/-- **The blocks of a keyed layout may change positions, sides and shapes.** -/
theorem Keyed.setBlocks (h : l.Keyed known) {blocks : List (Block α)}
    (hblocks : List.Forall₂ Block.Rekeyed l.blocks blocks) :
    Keyed known { l with blocks := blocks } := by
  refine ⟨?_, ?_, ?_⟩
  · rw [Layout.Coherent, Layout.size, ← hblocks.length_eq]
    exact h.coherent
  · intro c hc
    obtain ⟨i, hi, rfl⟩ := List.mem_iff_getElem.mp hc
    exact (hblocks.get (hblocks.length_eq ▸ hi) hi).2
  · rw [← h.makeups, ← List.forall₂_eq_eq_eq, List.forall₂_map_left_iff, List.forall₂_map_right_iff]
    exact hblocks.flip.imp fun _ _ hb => hb.1

lemma Keyed.setBlock (h : l.Keyed known) {i : Nat} {b c : Block α} (hb : l.blocks[i]? = some b)
    (hc : Block.Rekeyed b c) : Keyed known { l with blocks := l.blocks.set i c } := by
  refine h.setBlocks (List.forall₂_iff_get.mpr ⟨List.length_set.symm, ?_⟩)
  intro k hk hk'
  simp only [List.get_eq_getElem, List.getElem_set]
  split_ifs with hik
  · subst hik
    rw [List.getElem?_eq_getElem hk, Option.some.injEq] at hb
    rw [hb]
    exact hc
  · exact Block.Rekeyed.of_same (h.lists _ (List.getElem_mem hk)) rfl rfl

lemma Keyed.arrange (h : l.Keyed known) (f : Nat → α × α) : (l.arrange f).Keyed known := by
  refine h.setBlocks (List.forall₂_iff_get.mpr ⟨List.length_mapIdx.symm, ?_⟩)
  intro k hk hk'
  simp only [List.get_eq_getElem, List.getElem_mapIdx]
  exact Block.Rekeyed.of_same (h.lists _ (List.getElem_mem hk)) rfl rfl

lemma Keyed.pack [Scalar α] (h : l.Keyed known) : l.pack.Keyed known := by
  rw [pack_eq_arrange h.coherent]
  exact h.arrange _

/-! ## Loading -/

/-- The layout with every block in shape. -/
def inShape (l : Layout α) : Layout α := { l with blocks := l.blocks.map Block.inShape }

lemma Keyed.inShape (h : l.Keyed known) : l.inShape.Sound known := by
  refine ⟨?_, fun b hb => ?_, ?_⟩
  · rw [Layout.Coherent, Layout.size, Layout.inShape, List.length_map]
    exact h.coherent
  · obtain ⟨c, hc, rfl⟩ := List.mem_map.mp hb
    exact Block.inShape_showsShape (h.lists c hc)
  · rw [← h.makeups, Layout.inShape, List.map_map]
    exact List.map_congr_left fun b _ => Block.inShape_makeup b

lemma Sound.inShape (h : l.Sound known) : l.inShape = l := by
  rw [Layout.inShape, List.map_congr_left fun b hb => (h.showsShape b hb).inShape, List.map_id']

/-- A snapshot does not tell whether blocks are stretched. -/
lemma snapshot_inShape (l : Layout α) : l.inShape.snapshot = l.snapshot := by
  simp only [snapshot, Layout.inShape, List.map_map, Function.comp_def, Block.inShape_shapeKey,
    Block.inShape_x, Block.inShape_y]

/-- **Loading the snapshot of a keyed layout into blocks of the same makeups gives it back with all
blocks in shape.** -/
theorem run_load_keyed [Scalar α] {l' : Layout α} (h : l.Keyed known)
    (h' : l'.blocks.map Block.makeup = known) :
    (load true l.snapshot).run l' = .ok () l.inShape := by
  rw [← snapshot_inShape]
  exact run_load_snapshot h.inShape h'

/-! ## Properties that changes keep -/

/-- A property of layouts that a change of the pair, or of the shape of a block, keeps. -/
structure Closed (known : Makeups α) (I : Layout α → Prop) : Prop where
  keyed : ∀ l, I l → l.Keyed known
  setPair : ∀ l (q : SequencePair), I l → q.Coherent l.size → I { l with pair := q }
  setBlock : ∀ l (i : Nat) (b c : Block α), I l → l.blocks[i]? = some b → Block.Reshaped b c →
    I { l with blocks := l.blocks.set i c }

lemma closed_sound : Closed known (Sound known) where
  keyed := fun _ h => h.keyed
  setPair := fun _ _ h hq => h.setPair hq
  setBlock := fun _ _ _ _ h hb hc => h.setBlock hb hc

lemma closed_keyed : Closed known (Keyed known) where
  keyed := fun _ h => h
  setPair := fun _ _ h hq => h.setPair hq
  setBlock := fun _ _ _ _ h hb hc => h.setBlock hb hc.rekeyed

end Layout

end BlockPlan
