import BlockPlan.Proofs.Design.Overlap
import BlockPlan.Proofs.Packing.Install
import BlockPlan.Proofs.Packing.LongestPath

/-!
# Packing is legal and tightest

A sweep computes longest paths along one of the two relations "left of" and "below".  From this
follow, in exact arithmetic, the two halves of what packing is for.

* `SettledBelow.farEdge_le`, `SettledBelow.nonneg`, `SettledBelow.coordinate_le` — the three parts
  of "longest path": no block in front reaches further, nothing is below zero, and nothing smaller
  would do.
* `pack_farEdge_le`, `pack_coordinate_nonneg`, **`pack_coordinate_le_of_room`** — the same of a
  packed layout along either axis.
* `Layout.Respects` — blocks with coordinates from zero on that lie to each other as a pair demands.
* `Respects.apart` — two such blocks share no area.
* **`setSequences_pack`** — packing a pair of sequences is the least of all placements that respect
  it, and no two blocks overlap in it.
-/

namespace BlockPlan

namespace Layout

/-! ## Blocks that stand where they belong -/

section Settled

variable {axis : Axis} {key : Nat → Int} {blocks : List (Block Rat)} {start : Int}
  {sequence : List Nat} {q j : Nat} {c : Block Rat}

/-- No block in front under a smaller key reaches further. -/
lemma SettledBelow.farEdge_le (h : SettledBelow axis key start sequence blocks)
    (hq : (q : Int) < start) (hj : sequence[q]? = some j) (hc : blocks[j]? = some c) {p i : Nat}
    {b : Block Rat} (hpq : p < q) (hi : sequence[p]? = some i) (hb : blocks[i]? = some b)
    (hkey : key i < key j) : b.farEdge axis ≤ c.coordinate axis := by
  have hedge : b.farEdge axis ∈ {v | ∃ p i b, p < q ∧ sequence[p]? = some i ∧ blocks[i]? = some b ∧
      key i < key j ∧ b.farEdge axis = v} := ⟨p, i, b, hpq, hi, hb, hkey, rfl⟩
  rcases h.longest hq hj hc with hlargest | ⟨hnone, -⟩
  · exact hlargest.2 hedge
  · rw [hnone] at hedge
    exact absurd hedge (Set.notMem_empty _)

/-- A bound of zero and of the far edges in front under smaller keys is a bound
of the coordinate. -/
lemma SettledBelow.le_of_bound (h : SettledBelow axis key start sequence blocks)
    (hq : (q : Int) < start) (hj : sequence[q]? = some j) (hc : blocks[j]? = some c) {u : Rat}
    (hu : 0 ≤ u) (hfront : ∀ (p i : Nat) (b : Block Rat), p < q → sequence[p]? = some i →
      blocks[i]? = some b → key i < key j → b.farEdge axis ≤ u) :
    c.coordinate axis ≤ u := by
  rcases h.longest hq hj hc with ⟨⟨p, i, b, hpq, hi, hb, hkey, hedge⟩, -⟩ | ⟨-, hzero⟩
  · rw [← hedge]
    exact hfront p i b hpq hi hb hkey
  · rw [hzero]
    exact hu

lemma SettledBelow.nonneg (h : SettledBelow axis key start sequence blocks)
    (hextent : ∀ b ∈ blocks, 0 ≤ b.extent axis) :
    ∀ (q j : Nat) (c : Block Rat), (q : Int) < start → sequence[q]? = some j →
      blocks[j]? = some c → 0 ≤ c.coordinate axis := by
  intro q
  induction q using Nat.strong_induction_on with
  | _ q ih =>
    intro j c hq hj hc
    rcases h.longest hq hj hc with ⟨⟨p, i, b, hpq, hi, hb, -, hedge⟩, -⟩ | ⟨-, hzero⟩
    · -- the block in front starts from zero on, and ends no earlier
      have hnear := ih p hpq i b (by omega) hi hb
      have hside := hextent b (List.mem_of_getElem? hb)
      rw [← hedge, Block.farEdge]
      linarith
    · exact hzero.ge

/-- Coordinates that leave room for every block in front are nowhere smaller. -/
lemma SettledBelow.coordinate_le (h : SettledBelow axis key start sequence blocks)
    (other : Nat → Rat) (hother : ∀ i ∈ sequence, 0 ≤ other i)
    (hroom : ∀ (p q i j : Nat) (b : Block Rat), p < q → sequence[p]? = some i →
      sequence[q]? = some j → blocks[i]? = some b → key i < key j →
      other i + b.extent axis ≤ other j) :
    ∀ (q j : Nat) (c : Block Rat), (q : Int) < start → sequence[q]? = some j →
      blocks[j]? = some c → c.coordinate axis ≤ other j := by
  intro q
  induction q using Nat.strong_induction_on with
  | _ q ih =>
    intro j c hq hj hc
    refine h.le_of_bound hq hj hc (hother j (List.mem_of_getElem? hj)) ?_
    intro p i b hpq hi hb hkey
    have hfront := ih p hpq i b (by omega) hi hb
    have hnext := hroom p q i j b hpq hi hj hb hkey
    rw [Block.farEdge]
    linarith

end Settled

/-! ## Placements that respect a pair -/

/-- Blocks with coordinates from zero on that lie to each other as a sequence pair demands. -/
structure Respects (p : SequencePair) (blocks : List (Block Rat)) : Prop where
  x_nonneg : ∀ b ∈ blocks, 0 ≤ b.x
  y_nonneg : ∀ b ∈ blocks, 0 ≤ b.y
  leftOf : ∀ (i j : Nat) (b c : Block Rat), blocks[i]? = some b → blocks[j]? = some c →
    p.LeftOf i j → b.xMax ≤ c.x
  below : ∀ (i j : Nat) (b c : Block Rat), blocks[i]? = some b → blocks[j]? = some c →
    p.Below i j → b.yMax ≤ c.y

/-- Whether two blocks lie beside each other or one above the other. -/
def Apart (b c : Block Rat) : Prop :=
  b.xMax ≤ c.x ∨ c.xMax ≤ b.x ∨ b.yMax ≤ c.y ∨ c.yMax ≤ b.y

lemma Respects.apart {n : Nat} {p : SequencePair} {blocks : List (Block Rat)}
    (h : Respects p blocks) (hp : p.Coherent n) (hlength : blocks.length = n) {i j : Nat}
    {b c : Block Rat} (hne : i ≠ j) (hb : blocks[i]? = some b) (hc : blocks[j]? = some c) :
    Apart b c := by
  have hi : i < n := hlength ▸ (List.getElem?_eq_some_iff.mp hb).1
  have hj : j < n := hlength ▸ (List.getElem?_eq_some_iff.mp hc).1
  rcases hp.relation hi hj hne with hrel | hrel | hrel | hrel
  · exact Or.inl (h.leftOf i j b c hb hc hrel.1)
  · exact Or.inr (Or.inl (h.leftOf j i c b hc hb hrel.1))
  · exact Or.inr (Or.inr (Or.inl (h.below i j b c hb hc hrel.1)))
  · exact Or.inr (Or.inr (Or.inr (h.below j i c b hc hb hrel.1)))

lemma Apart.overlap_eq_zero {b c : Block Rat} (h : Apart b c) : b.box.overlap c.box = 0 := by
  rw [Box.overlap]
  refine if_pos ?_
  simp only [Scalar.smaller_eq_min, Scalar.larger_eq_max, Block.box]
  rcases h with h | h | h | h
  · left; linarith [min_le_left b.xMax c.xMax, le_max_right b.x c.x]
  · left; linarith [min_le_right b.xMax c.xMax, le_max_left b.x c.x]
  · right; linarith [min_le_left b.yMax c.yMax, le_max_right b.y c.y]
  · right; linarith [min_le_right b.yMax c.yMax, le_max_left b.y c.y]

/-! ## Packing respects the pair, and nothing smaller does -/

section Pack

variable {l : Layout Rat}

lemma pack_sides (h : l.Coherent) (hsides : ∀ b ∈ l.blocks, 0 ≤ b.width ∧ 0 ≤ b.height) :
    ∀ c ∈ l.pack.blocks, 0 ≤ c.width ∧ 0 ≤ c.height := by
  intro c hc
  obtain ⟨i, hi⟩ := List.mem_iff_getElem?.mp hc
  obtain ⟨b, hb, hwidth, hheight⟩ := getElem?_pack h hi
  rw [hwidth, hheight]
  exact hsides b (List.mem_of_getElem? hb)

/-- Blocks without negative sides along an axis are packed from zero on. -/
lemma pack_coordinate_nonneg (h : l.Coherent) (axis : Axis)
    (hsides : ∀ c ∈ l.pack.blocks, 0 ≤ c.extent axis) {i : Nat} {c : Block Rat}
    (hc : l.pack.blocks[i]? = some c) : 0 ≤ c.coordinate axis := by
  obtain ⟨p, hp, hpi⟩ := exists_slot h axis (lt_size_of_pack h hc)
  exact (pack_settled h axis).nonneg hsides p i c hp hpi hc

/-- What is packed in front of a block does not reach beyond it. -/
lemma pack_farEdge_le (h : l.Coherent) (axis : Axis) {i j : Nat} {b c : Block Rat}
    (hb : l.pack.blocks[i]? = some b) (hc : l.pack.blocks[j]? = some c)
    (hfront : l.InFront axis i j) : b.farEdge axis ≤ c.coordinate axis := by
  obtain ⟨p, -, hpi⟩ := exists_slot h axis (lt_size_of_pack h hb)
  obtain ⟨q, hq, hqj⟩ := exists_slot h axis (lt_size_of_pack h hc)
  obtain ⟨hpq, hkey⟩ := (inFront_iff h hpi hqj).mp hfront
  exact (pack_settled h axis).farEdge_le hq hqj hc hpq hpi hb hkey

lemma extent_pack (h : l.Coherent) (axis : Axis) {i : Nat} {c : Block Rat}
    (hc : l.pack.blocks[i]? = some c) :
    ∃ b, l.blocks[i]? = some b ∧ c.extent axis = b.extent axis := by
  obtain ⟨b, hb, hwidth, hheight⟩ := getElem?_pack h hc
  cases axis with
  | x => exact ⟨b, hb, hwidth⟩
  | y => exact ⟨b, hb, hheight⟩

/-- Where a block stands along an axis. -/
def coordinateAt (l : Layout Rat) (axis : Axis) (i : Nat) : Rat :=
  ((l.blocks[i]?).map (Block.coordinate axis)).getD 0

lemma coordinateAt_eq {axis : Axis} {i : Nat} {b : Block Rat} (hb : l.blocks[i]? = some b) :
    l.coordinateAt axis i = b.coordinate axis := by
  rw [coordinateAt, hb, Option.map_some, Option.getD_some]

/-- To an entry of the first of two lists that are related entry by entry belongs
one of the second. -/
lemma exists_right_of_forall₂ {β γ : Type} {R : β → γ → Prop} {xs : List β} {ys : List γ}
    (h : List.Forall₂ R xs ys) {i : Nat} {x : β} (hx : xs[i]? = some x) :
    ∃ y, ys[i]? = some y ∧ R x y := by
  obtain ⟨hi, rfl⟩ := List.getElem?_eq_some_iff.mp hx
  have hi' : i < ys.length := h.length_eq ▸ hi
  exact ⟨ys[i], List.getElem?_eq_getElem hi', h.get hi hi'⟩

/-- **No block is packed further out than where a layout of blocks at least as long leaves room for
those in front.** -/
theorem pack_coordinate_le_of_room (h : l.Coherent) {axis : Axis} {m : Layout Rat}
    (hextent : List.Forall₂ (fun b c => b.extent axis ≤ c.extent axis) l.blocks m.blocks)
    (hnonneg : ∀ c ∈ m.blocks, 0 ≤ c.coordinate axis)
    (hroom : ∀ (i j : Nat) (b c : Block Rat), m.blocks[i]? = some b → m.blocks[j]? = some c →
      l.InFront axis i j → b.farEdge axis ≤ c.coordinate axis)
    {i : Nat} {b c : Block Rat} (hb : l.pack.blocks[i]? = some b) (hc : m.blocks[i]? = some c) :
    b.coordinate axis ≤ c.coordinate axis := by
  have hblock : ∀ {j : Nat}, j < l.size → ∃ d, m.blocks[j]? = some d := by
    intro j hj
    exact ⟨_, List.getElem?_eq_getElem (hextent.length_eq ▸ hj : j < m.blocks.length)⟩
  obtain ⟨p, hp, hpi⟩ := exists_slot h axis (lt_size_of_pack h hb)
  rw [← coordinateAt_eq hc]
  refine (pack_settled h axis).coordinate_le (m.coordinateAt axis) (fun j hj => ?_) ?_
    p i b hp hpi hb
  · obtain ⟨q, hq⟩ := List.mem_iff_getElem?.mp hj
    obtain ⟨d, hd⟩ := hblock (lt_size_of_order h hq)
    rw [coordinateAt_eq hd]
    exact hnonneg d (List.mem_of_getElem? hd)
  · intro p' q' j k b' hpq hj hk hb' hkey
    obtain ⟨b₀, hb₀, hsame⟩ := extent_pack h axis hb'
    obtain ⟨d, hd, hlonger⟩ := exists_right_of_forall₂ hextent hb₀
    obtain ⟨e, he⟩ := hblock (lt_size_of_order h hk)
    have hfront := hroom j k d e hd he ((inFront_iff h hj hk).mpr ⟨hpq, hkey⟩)
    rw [Block.farEdge] at hfront
    rw [coordinateAt_eq hd, coordinateAt_eq he, hsame]
    linarith

/-- **A packed layout respects its pair.** -/
theorem pack_respects (h : l.Coherent) (hsides : ∀ b ∈ l.blocks, 0 ≤ b.width ∧ 0 ≤ b.height) :
    Respects l.pair l.pack.blocks where
  x_nonneg := by
    intro c hc
    obtain ⟨i, hi⟩ := List.mem_iff_getElem?.mp hc
    exact pack_coordinate_nonneg h .x (fun d hd => (pack_sides h hsides d hd).1) hi
  y_nonneg := by
    intro c hc
    obtain ⟨i, hi⟩ := List.mem_iff_getElem?.mp hc
    exact pack_coordinate_nonneg h .y (fun d hd => (pack_sides h hsides d hd).2) hi
  leftOf := fun _ _ _ _ hi hj hleft => pack_farEdge_le h .x hi hj hleft
  below := fun _ _ _ _ hi hj hbelow => pack_farEdge_le h .y hi hj hbelow

/-- **No placement that respects the pair has a block further left or further down.** -/
theorem pack_le (h : l.Coherent) {points : Nat → Rat × Rat}
    (hother : Respects l.pair (l.arrange points).blocks) {i : Nat} {c : Block Rat}
    (hc : l.pack.blocks[i]? = some c) : c.x ≤ (points i).1 ∧ c.y ≤ (points i).2 := by
  obtain ⟨b, hb, -⟩ := getElem?_pack h hc
  have hplaced : (l.arrange points).blocks[i]? = some (b.place (points i).1 (points i).2) := by
    rw [getElem?_arrange, hb, Option.map_some]
  have hextent : ∀ axis, List.Forall₂ (fun b c => b.extent axis ≤ c.extent axis) l.blocks
      (l.arrange points).blocks := by
    intro axis
    refine List.forall₂_iff_get.mpr ⟨List.length_mapIdx.symm, fun k hk hk' => ?_⟩
    simp only [List.get_eq_getElem, arrange, List.getElem_mapIdx]
    cases axis <;> exact le_rfl
  constructor
  · exact pack_coordinate_le_of_room h (hextent .x) hother.x_nonneg hother.leftOf hc hplaced
  · exact pack_coordinate_le_of_room h (hextent .y) hother.y_nonneg hother.below hc hplaced

/-- The sides of the bounding box are the least bounds of the far edges. -/
lemma boundingSides_le_iff (hne : l.blocks ≠ []) {u v : Rat} :
    (l.boundingSides.1 ≤ u ↔ ∀ b ∈ l.blocks, b.xMax ≤ u) ∧
      (l.boundingSides.2 ≤ v ↔ ∀ b ∈ l.blocks, b.yMax ≤ v) := by
  obtain ⟨b, rest, hl⟩ := List.exists_cons_of_ne_nil hne
  simp only [boundingSides, hl, Scalar.largest_le_iff, ← List.map_cons,
    List.forall_mem_map, and_self]

/-- No block reaches beyond the bounding box. -/
lemma le_boundingSides {b : Block Rat} (hb : b ∈ l.blocks) :
    b.xMax ≤ l.boundingSides.1 ∧ b.yMax ≤ l.boundingSides.2 := by
  have hne := List.ne_nil_of_mem hb
  exact ⟨(boundingSides_le_iff (v := 0) hne).1.mp le_rfl b hb,
    (boundingSides_le_iff (u := 0) hne).2.mp le_rfl b hb⟩

/-- A layout whose blocks reach nowhere further than those of another one has no longer side. -/
lemma boundingSides_le {m : Layout Rat} (hsize : l.size = m.size)
    (h : ∀ (i : Nat) (b c : Block Rat), l.blocks[i]? = some b → m.blocks[i]? = some c →
      b.xMax ≤ c.xMax ∧ b.yMax ≤ c.yMax) :
    l.boundingSides.1 ≤ m.boundingSides.1 ∧ l.boundingSides.2 ≤ m.boundingSides.2 := by
  by_cases hne : l.blocks = []
  · have hm : m.blocks = [] := by simpa [size, hne] using hsize.symm
    rw [boundingSides, boundingSides, hne, hm]
    exact ⟨le_rfl, le_rfl⟩
  · have hreach : ∀ b ∈ l.blocks, b.xMax ≤ m.boundingSides.1 ∧ b.yMax ≤ m.boundingSides.2 := by
      intro b hb
      obtain ⟨i, hi⟩ := List.mem_iff_getElem?.mp hb
      have hlt : i < m.size := hsize.symm ▸ (List.getElem?_eq_some_iff.mp hi).1
      obtain ⟨hx, hy⟩ := h i b _ hi (List.getElem?_eq_getElem hlt)
      obtain ⟨hright, habove⟩ := le_boundingSides (List.getElem_mem hlt)
      exact ⟨hx.trans hright, hy.trans habove⟩
    rw [(boundingSides_le_iff (v := 0) hne).1, (boundingSides_le_iff (u := 0) hne).2]
    exact ⟨fun b hb => (hreach b hb).1, fun b hb => (hreach b hb).2⟩

end Pack

end Layout

/-! ## Overlap of a whole design -/

namespace Design

lemma overlapArea_eq_zero {d : Design Rat}
    (h : ∀ (i j : Nat) (b c : Block Rat), i ≠ j → d.blocks[i]? = some b → d.blocks[j]? = some c →
      Layout.Apart b c) : d.overlapArea = 0 :=
  overlapArea_eq_zero_iff.mpr fun i j b c hne hb hc => (h i j b c hne hb hc).overlap_eq_zero

end Design

namespace Layout

/-- **Packing is legal and tightest.**  Once two sequences are installed on blocks without negative
sides, packing moves every block to a coordinate from zero on and lets no two of them overlap, and
any placement from zero on that respects the sequences has each block at least as far right and as
far up, so that none has a smaller bounding box. -/
theorem setSequences_pack {l₀ l : Layout Rat} {positive negative : List Int}
    (hsides : ∀ b ∈ l₀.blocks, 0 ≤ b.width ∧ 0 ≤ b.height)
    (hset : (setSequences positive negative).run l₀ = .ok () l) :
    l.pack = l.arrange l.pack.points ∧ l.blocks = l₀.blocks ∧
      (l.pair.positive = positive.map Int.toNat ∧ l.pair.negative = negative.map Int.toNat) ∧
      Respects l.pair l.pack.blocks ∧
      (∀ (i j : Nat) (b c : Block Rat), i ≠ j → l.pack.blocks[i]? = some b →
        l.pack.blocks[j]? = some c → Apart b c ∧ b.box.overlap c.box = 0) ∧
      (∀ d : Design Rat, d.blocks = l.pack.blocks → d.overlapArea = 0) ∧
      ∀ points : Nat → Rat × Rat, Respects l.pair (l.arrange points).blocks →
        (∀ (i : Nat) (b : Block Rat), l.pack.blocks[i]? = some b →
          b.x ≤ (points i).1 ∧ b.y ≤ (points i).2) ∧
        l.pack.boundingSides.1 ≤ (l.arrange points).boundingSides.1 ∧
        l.pack.boundingSides.2 ≤ (l.arrange points).boundingSides.2 := by
  obtain ⟨hpair, hblocks⟩ := run_setSequences_ok_iff.mp hset
  have hsize : l.size = l₀.size := by rw [size, size, hblocks]
  have h : l.Coherent := by
    rw [Layout.Coherent, hsize]
    exact SequencePair.coherent_of_ofPermutations hpair
  obtain ⟨-, hsequences⟩ := SequencePair.ofPermutations_ok_iff.mp hpair
  rw [← hblocks] at hsides
  have hrespects := pack_respects h hsides
  have hapart : ∀ (i j : Nat) (b c : Block Rat), i ≠ j → l.pack.blocks[i]? = some b →
      l.pack.blocks[j]? = some c → Apart b c := by
    intro i j b c hne hb hc
    exact hrespects.apart h (pack_size h) hne hb hc
  refine ⟨pack_eq_arrange h, hblocks, ?_, hrespects, ?_, ?_, ?_⟩
  · rw [hsequences]
    exact ⟨rfl, rfl⟩
  · intro i j b c hne hb hc
    exact ⟨hapart i j b c hne hb hc, (hapart i j b c hne hb hc).overlap_eq_zero⟩
  · intro d hd
    rw [← hd] at hapart
    exact Design.overlapArea_eq_zero hapart
  · intro points hother
    have hleast : ∀ (i : Nat) (b : Block Rat), l.pack.blocks[i]? = some b →
        b.x ≤ (points i).1 ∧ b.y ≤ (points i).2 := by
      intro i b hb
      exact pack_le h hother hb
    have hsize : l.pack.size = (l.arrange points).size := by rw [pack_size h, arrange_size]
    refine ⟨hleast, boundingSides_le hsize ?_⟩
    intro i b c hb hc
    obtain ⟨b₀, hb₀, hwidth, hheight⟩ := getElem?_pack h hb
    rw [getElem?_arrange, hb₀, Option.map_some, Option.some.injEq] at hc
    obtain ⟨hx, hy⟩ := hleast i b hb
    rw [← hc, Block.xMax, Block.xMax, Block.yMax, Block.yMax, hwidth, hheight]
    exact ⟨add_le_add_left hx _, add_le_add_left hy _⟩

theorem setSequences_pack_wideAndTall :
    (∀ b ∈ wideAndTall.blocks, 0 ≤ b.width ∧ 0 ≤ b.height) ∧
      ∃ l, (setSequences [1, 0] [0, 1]).run wideAndTall = .ok () l ∧
      Respects l.pair l.pack.blocks := by
  have hsides : ∀ b ∈ wideAndTall.blocks, 0 ≤ b.width ∧ 0 ≤ b.height := by
    intro b hb
    simp only [wideAndTall, ofBlocks, List.mem_cons, List.not_mem_nil, or_false] at hb
    rcases hb with rfl | rfl <;> norm_num
  have hset : (setSequences [1, 0] [0, 1]).run wideAndTall
      = .ok () { wideAndTall with pair := .ofSequences 2 [1, 0] [0, 1] } := rfl
  exact ⟨hsides, _, hset, (setSequences_pack hsides hset).2.2.2.1⟩

end Layout

end BlockPlan
