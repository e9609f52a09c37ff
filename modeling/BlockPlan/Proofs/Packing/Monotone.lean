import BlockPlan.Proofs.Packing.Tightest

/-!
# Packing is monotone in the sides of the blocks

Where blocks have shorter sides along an axis, the packing of the larger ones leaves room for them
in the same order, and nothing is packed further out than such a room.  The sides along the other
axis do not matter.  So a narrower shape for one block moves no block to the right, whatever it does
to the heights.

* `side` — the side of the bounding box along an axis.
* `NoFurther` — blocks that stand no further along an axis, with no longer a box around them.
* `pack_coordinate_le`, `pack_side_le` — so do the smaller blocks, and so has their packing.
* `run_setShape_eq_ok` — a shape that is put in force changes a single block.
* **`pack_mono`** — packing is monotone in the sides along each axis.
-/

namespace BlockPlan.Layout

variable {axis : Axis}

/-! ## The box around the blocks -/

section Side

variable {l : Layout Rat}

/-- The side of the bounding box along an axis. -/
def side (l : Layout Rat) (axis : Axis) : Rat :=
  match axis with
  | .x => l.boundingSides.1
  | .y => l.boundingSides.2

lemma side_le_iff (hne : l.blocks ≠ []) {u : Rat} :
    l.side axis ≤ u ↔ ∀ b ∈ l.blocks, b.farEdge axis ≤ u := by
  cases axis with
  | x => exact (boundingSides_le_iff (v := 0) hne).1
  | y => exact (boundingSides_le_iff (u := 0) hne).2

lemma side_nil (hnone : l.blocks = []) : l.side axis = 0 := by
  cases axis <;> simp [side, boundingSides, hnone]

end Side

/-! ## Smaller blocks -/

/-- The blocks of one layout stand no further along an axis than those of another, and the box
around them is no longer. -/
structure NoFurther (axis : Axis) (l m : Layout Rat) : Prop where
  coordinates : List.Forall₂ (fun b c => b.coordinate axis ≤ c.coordinate axis) l.blocks m.blocks
  side : l.side axis ≤ m.side axis

section Smaller

variable {l m : Layout Rat} (h : m.Coherent) (hpair : l.pair = m.pair)
  (hsides : ∀ b ∈ m.blocks, 0 ≤ b.extent axis)
  (hle : List.Forall₂ (fun b c => b.extent axis ≤ c.extent axis) l.blocks m.blocks)

include hpair hle

lemma coherent_of_smaller : l.Coherent ↔ m.Coherent := by
  rw [Layout.Coherent, Layout.Coherent, hpair, size, size, hle.length_eq]

include h hsides

/-- **No smaller block is packed further out**: the larger blocks leave room
for the smaller ones. -/
theorem pack_coordinate_le {i : Nat} {b c : Block Rat} (hb : l.pack.blocks[i]? = some b)
    (hc : m.pack.blocks[i]? = some c) : b.coordinate axis ≤ c.coordinate axis := by
  have hl : l.Coherent := (coherent_of_smaller hpair hle).mpr h
  have hsides' : ∀ c ∈ m.pack.blocks, 0 ≤ c.extent axis := by
    intro c hc
    obtain ⟨j, hj⟩ := List.mem_iff_getElem?.mp hc
    obtain ⟨d, hd, hextent⟩ := extent_pack h axis hj
    exact hextent ▸ hsides d (List.mem_of_getElem? hd)
  refine pack_coordinate_le_of_room hl ?_ (fun c hc => ?_) (fun j k d e hd he hfront => ?_) hb hc
  · refine List.forall₂_iff_get.mpr ⟨?_, fun k hk hk' => ?_⟩
    · rw [← size, ← size, pack_size h]
      exact hle.length_eq
    · obtain ⟨d, hd, hextent⟩ := extent_pack h axis (List.getElem?_eq_getElem hk')
      have hshorter := hle.get hk (List.getElem?_eq_some_iff.mp hd).1
      simp only [List.get_eq_getElem, (List.getElem?_eq_some_iff.mp hd).2] at hshorter ⊢
      rwa [hextent]
  · obtain ⟨j, hj⟩ := List.mem_iff_getElem?.mp hc
    exact pack_coordinate_nonneg h axis hsides' hj
  · refine pack_farEdge_le h axis hd he ?_
    cases axis <;> rwa [InFront, hpair] at hfront

/-- **Nor is the box around the smaller blocks any longer.** -/
theorem pack_side_le : l.pack.side axis ≤ m.pack.side axis := by
  have hl : l.Coherent := (coherent_of_smaller hpair hle).mpr h
  have hlength : l.pack.size = m.pack.size := by
    rw [pack_size hl, pack_size h]
    exact hle.length_eq
  by_cases hnone : l.pack.blocks = []
  · have hnone' : m.pack.blocks = [] :=
      List.eq_nil_of_length_eq_zero (by rw [← size, ← hlength, size, hnone]; rfl)
    rw [side_nil hnone, side_nil hnone']
  · refine (side_le_iff hnone).mpr fun b hb => ?_
    obtain ⟨i, hi⟩ := List.mem_iff_getElem?.mp hb
    have hlt : i < m.pack.blocks.length := (List.getElem?_eq_some_iff.mp hi).1.trans_eq hlength
    have hget := List.getElem?_eq_getElem hlt
    obtain ⟨b₀, hb₀, hextent⟩ := extent_pack hl axis hi
    obtain ⟨c₀, hc₀, hextent'⟩ := extent_pack h axis hget
    obtain ⟨d, hd, hshorter⟩ := exists_right_of_forall₂ hle hb₀
    obtain rfl := Option.some.inj (hc₀.symm.trans hd)
    have hne : m.pack.blocks ≠ [] := List.ne_nil_of_mem (List.getElem_mem hlt)
    refine le_trans ?_ ((side_le_iff hne).mp le_rfl _ (List.getElem_mem hlt))
    rw [Block.farEdge, Block.farEdge, hextent, hextent']
    exact add_le_add (pack_coordinate_le h hpair hsides hle hi hget) hshorter

lemma pack_noFurther : NoFurther axis l.pack m.pack := by
  have hl : l.Coherent := (coherent_of_smaller hpair hle).mpr h
  refine ⟨List.forall₂_iff_get.mpr ⟨?_, fun i hi hi' => ?_⟩, pack_side_le h hpair hsides hle⟩
  · rw [← size, ← size, pack_size hl, pack_size h]
    exact hle.length_eq
  · exact pack_coordinate_le h hpair hsides hle (List.getElem?_eq_getElem hi)
      (List.getElem?_eq_getElem hi')

end Smaller

/-! ## Another shape for one block -/

/-- A shape that is put in force changes the block in its slot, and nothing else. -/
lemma run_setShape_eq_ok {l m : Layout Rat} {slot : Int} {key : ShapeKey}
    (hset : (setShape slot key).run m = .ok () l) :
    ∃ i b c, (Slot.place m.size slot : Except (Fault Rat) Nat) = .ok i ∧ m.blocks[i]? = some b ∧
      (Block.setShape key).run b = .ok () c ∧ l = { m with blocks := m.blocks.set i c } := by
  simp only [setShape, editBlock, Block.editAt, Edit.run_within, EStateM.run_bind,
    EStateM.run_get] at hset
  cases hplace : (Slot.place m.blocks.length slot : Except (Fault Rat) Nat) with
  | error e =>
      rw [hplace] at hset
      cases hset
  | ok i =>
      simp only [hplace, Edit.run_ofExcept_ok] at hset
      cases hb : m.blocks[i]? with
      | none =>
          rw [hb] at hset
          cases hset
      | some b =>
          rw [hb] at hset
          cases hrun : (Block.setShape key).run b with
          | ok u c =>
              simp only [Edit.run_within, hrun] at hset
              cases hset
              exact ⟨i, b, c, hplace, hb, hrun, rfl⟩
          | error e c =>
              simp only [Edit.run_within, hrun] at hset
              cases hset

/-- **Packing is monotone in the sides along each axis.**  Of two assignments of sides to the
blocks, none of which is longer along the axis in the first one, the first one puts no block further
out, and needs no longer box.  So does a shape for one block that is no longer along the axis,
whatever it does along the other one. -/
theorem pack_mono (axis : Axis) {m : Layout Rat} (h : m.Coherent)
    (hsides : ∀ b ∈ m.blocks, 0 ≤ b.extent axis) :
    (∀ l : Layout Rat, l.pair = m.pair →
      List.Forall₂ (fun b c => b.extent axis ≤ c.extent axis) l.blocks m.blocks →
      NoFurther axis l.pack m.pack) ∧
    ∀ (slot : Int) (key : ShapeKey) (l : Layout Rat) (i : Nat) (b c : Block Rat),
      (setShape slot key).run m = .ok () l →
      (Slot.place m.size slot : Except (Fault Rat) Nat) = .ok i →
      m.blocks[i]? = some b → l.blocks[i]? = some c → c.extent axis ≤ b.extent axis →
      NoFurther axis l.pack m.pack := by
  constructor
  · intro l hpair hle
    exact pack_noFurther h hpair hsides hle
  · intro slot key l i b c hset hplace hb hc hshorter
    obtain ⟨i', b', c', hplace', hb', -, rfl⟩ := run_setShape_eq_ok hset
    obtain rfl := Except.ok.inj (hplace.symm.trans hplace')
    obtain rfl := Option.some.inj (hb.symm.trans hb')
    have hi : i < m.blocks.length := (List.getElem?_eq_some_iff.mp hb).1
    rw [List.getElem?_set_self hi, Option.some.injEq] at hc
    subst hc
    -- only the block that was given the shape may have become shorter
    have hle : List.Forall₂ (fun b c : Block Rat => b.extent axis ≤ c.extent axis)
        (m.blocks.set i c') m.blocks := by
      refine List.forall₂_iff_get.mpr ⟨List.length_set, ?_⟩
      intro k hk hk'
      simp only [List.get_eq_getElem, List.getElem_set]
      split_ifs with hik
      · subst hik
        rw [(List.getElem?_eq_some_iff.mp hb).2]
        exact hshorter
      · exact le_rfl
    exact pack_noFurther h rfl hsides hle

/-- A soft block, lying flat, with a tall block to the right of it. -/
def flatBesideTall : Layout Rat :=
  .ofBlocks [⟨"soft", .soft [(4, 1), (2, 2)] 0, 0, 0, 4, 1, false⟩,
    ⟨"tall", .hard 1 3 [.r0] .r0, 0, 0, 1, 3, false⟩]

/-- The soft block as a square. -/
def squareBesideTall : Layout Rat :=
  .ofBlocks [⟨"soft", .soft [(4, 1), (2, 2)] 1, 0, 0, 2, 2, false⟩,
    ⟨"tall", .hard 1 3 [.r0] .r0, 0, 0, 1, 3, false⟩]

/-- The narrower candidate lets the tall block move to the left, and is higher. -/
theorem pack_mono_besideTall :
    (flatBesideTall.Coherent ∧ ∀ b ∈ flatBesideTall.blocks, 0 ≤ b.extent .x) ∧
      (setShape 0 (.candidate 1)).run flatBesideTall = .ok () squareBesideTall ∧
      (squareBesideTall.pack.side .x = 3 ∧ flatBesideTall.pack.side .x = 5) ∧
      NoFurther .x squareBesideTall.pack flatBesideTall.pack ∧
      (squareBesideTall.Coherent ∧ ∀ b ∈ squareBesideTall.blocks, 0 ≤ b.extent .y) ∧
      NoFurther .y flatBesideTall.pack squareBesideTall.pack := by
  have hflat : flatBesideTall.Coherent :=
    SequencePair.coherent_ofSequences (List.Perm.refl _) (List.Perm.refl _)
  have hsquare : squareBesideTall.Coherent :=
    SequencePair.coherent_ofSequences (List.Perm.refl _) (List.Perm.refl _)
  have hwide : ∀ b ∈ flatBesideTall.blocks, 0 ≤ b.extent .x := by decide +kernel
  have hhigh : ∀ b ∈ squareBesideTall.blocks, 0 ≤ b.extent .y := by decide +kernel
  have hset : (setShape 0 (.candidate 1)).run flatBesideTall = .ok () squareBesideTall := rfl
  refine ⟨⟨hflat, hwide⟩, hset, by decide +kernel, ?_, ⟨hsquare, hhigh⟩, ?_⟩
  · exact (pack_mono .x hflat hwide).2 0 (.candidate 1) _ 0 _ _ hset rfl rfl rfl (by decide +kernel)
  · exact (pack_mono .y hsquare hhigh).1 _ rfl (.cons (by decide +kernel) (.cons le_rfl .nil))

end BlockPlan.Layout
