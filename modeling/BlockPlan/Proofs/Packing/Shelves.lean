import BlockPlan.Proofs.Packing.Tightest

/-!
# The starting sequences pack shelves

The sequences to start from list the shelves of some blocks, the one from bottom to top and the
other from top to bottom.  Two blocks of one shelf stand in the same order in both, so that the one
is left of the other; of two blocks on different shelves the lower one is below the other.  Packing
such a pair puts every block behind those in front of it on its shelf, and on top of the first block
of the shelf beneath, which is the tallest one there.

* `sumBefore` — how far one gets along a list.
* `Shelf.Greedy`, **`Shelf.cut_greedy`** — shelves are filled as long as the next block fits in.
* `Shelf.byHeight_sorted` — the blocks are sorted by decreasing height, equal ones in their order.
* `Shelf.Shelved`, **`Shelf.shelves_shelved`** — what the shelves of some blocks are.
* `Shelf.Encodes`, `Encodes.leftOf_iff`, `Encodes.below_iff` — how blocks on shelves lie to each
  other.
* **`Encodes.pack_x`**, **`Encodes.pack_y`** — where packing puts them.
* **`Shelf.sequences_pack`** — the starting sequences are always accepted, and packing them gives
  the shelves.
-/

namespace BlockPlan

/-! ## How far one gets along a list -/

section Sums

variable {β : Type} {f : β → Rat} {xs : List β} {m n : Nat}

/-- The sum over the entries in front of a slot. -/
def sumBefore (f : β → Rat) (xs : List β) (n : Nat) : Rat := ((xs.take n).map f).sum

@[simp] lemma sumBefore_zero (f : β → Rat) (xs : List β) : sumBefore f xs 0 = 0 := rfl

@[simp] lemma sumBefore_length (f : β → Rat) (xs : List β) :
    sumBefore f xs xs.length = (xs.map f).sum := by
  rw [sumBefore, List.take_length]

lemma sumBefore_succ {x : β} (hx : xs[n]? = some x) :
    sumBefore f xs (n + 1) = sumBefore f xs n + f x := by
  simp [sumBefore, List.take_add_one, hx]

lemma sumBefore_mono (hf : ∀ x, 0 ≤ f x) (hmn : m ≤ n) : sumBefore f xs m ≤ sumBefore f xs n := by
  refine ((List.take_prefix_take_left hmn).sublist.map f).sum_le_sum fun a ha => ?_
  obtain ⟨x, -, rfl⟩ := List.mem_map.mp ha
  exact hf x

end Sums

namespace Shelf

/-! ## Sides of numbered blocks -/

/-- The width of the block of a number. -/
def widthOf (blocks : List (Block Rat)) (i : Nat) : Rat := blocks[i]?.elim 0 Block.width

/-- The height of the block of a number. -/
def heightOf (blocks : List (Block Rat)) (i : Nat) : Rat := blocks[i]?.elim 0 Block.height

/-- The height of a shelf, which is that of its first block. -/
def rise (blocks : List (Block Rat)) (row : List Nat) : Rat := row.head?.elim 0 (heightOf blocks)

section Sides

variable {blocks : List (Block Rat)} {i : Nat} {b : Block Rat}

lemma widthOf_eq (hb : blocks[i]? = some b) :
    widthOf blocks i = b.width := by rw [widthOf, hb, Option.elim_some]

lemma heightOf_eq (hb : blocks[i]? = some b) : heightOf blocks i = b.height := by
  rw [heightOf, hb, Option.elim_some]

variable (hsides : ∀ b ∈ blocks, 0 ≤ b.width ∧ 0 ≤ b.height)

include hsides

lemma widthOf_nonneg (i : Nat) : 0 ≤ widthOf blocks i := by
  cases hb : blocks[i]? with
  | none => rw [widthOf, hb, Option.elim_none]
  | some b => exact widthOf_eq hb ▸ (hsides b (List.mem_of_getElem? hb)).1

lemma heightOf_nonneg (i : Nat) : 0 ≤ heightOf blocks i := by
  cases hb : blocks[i]? with
  | none => rw [heightOf, hb, Option.elim_none]
  | some b => exact heightOf_eq hb ▸ (hsides b (List.mem_of_getElem? hb)).2

lemma rise_nonneg (row : List Nat) : 0 ≤ rise blocks row := by
  cases row with
  | nil => exact le_rfl
  | cons i row => exact heightOf_nonneg hsides i

end Sides

/-! ## Filling shelves -/

/-- Shelves that are filled from left to right: none is empty, one with several blocks is no wider
than the outline, and the first block of the next one would have made it too wide. -/
structure Greedy (outline : Rat) (width : Nat → Rat) (rows : List (List Nat)) : Prop where
  ne_nil : ∀ row ∈ rows, row ≠ []
  fits : ∀ row ∈ rows, (row.map width).sum ≤ outline ∨ row.length = 1
  full : rows.IsChain fun row next => ∀ i ∈ next.head?, outline < (row.map width).sum + width i

/-- A shelf beneath others that its width keeps from the first of them. -/
lemma Greedy.cons {outline : Rat} {width : Nat → Rat} {rows : List (List Nat)} {row : List Nat}
    (h : Greedy outline width rows) (hne : row ≠ [])
    (hfits : (row.map width).sum ≤ outline ∨ row.length = 1)
    (hfull : ∀ next ∈ rows.head?, ∀ i ∈ next.head?, outline < (row.map width).sum + width i) :
    Greedy outline width (row :: rows) :=
  ⟨List.forall_mem_cons.mpr ⟨hne, h.ne_nil⟩, List.forall_mem_cons.mpr ⟨hfits, h.fits⟩,
    List.isChain_cons.mpr ⟨hfull, h.full⟩⟩

/-- **Shelves are filled as long as the next block fits in.**  The first shelf begins with what is
on it already. -/
theorem cut_greedy {outline : Rat} {width : Nat → Rat} {entries : List (Nat × Block Rat)}
    (hwidth : ∀ e ∈ entries, e.2.width = width e.1) : ∀ (row : List Nat) (used : Rat),
      used = (row.map width).sum → (used ≤ outline ∨ row.length ≤ 1) →
      Greedy outline width (cut outline row used entries) ∧
        ∀ i ∈ row.head?, ∀ first ∈ (cut outline row used entries).head?, first.head? = some i := by
  induction entries with
  | nil =>
      intro row used hused hfits
      rw [cut]
      cases row with
      | nil => exact ⟨⟨by simp, by simp, by simp⟩, by simp⟩
      | cons i row =>
          refine ⟨⟨by simp, ?_, by simp⟩, by simp⟩
          simpa [hused] using hfits
  | cons e entries ih =>
      intro row used hused hfits
      obtain ⟨i, b⟩ := e
      obtain ⟨hb, hwidth⟩ : b.width = width i ∧ ∀ e ∈ entries, e.2.width = width e.1 :=
        List.forall_mem_cons.mp hwidth
      rw [cut]
      split_ifs with hover
      · -- a new shelf begins with this block
        obtain ⟨hrest, hfirst⟩ := ih hwidth [i] (0 + b.width) (by simp [hb]) (Or.inr le_rfl)
        simp only [Bool.and_eq_true, Bool.not_eq_true', List.isEmpty_eq_false_iff,
          decide_eq_true_eq] at hover
        have hkept : (row.map width).sum ≤ outline ∨ row.length = 1 := by
          rw [← hused]
          exact hfits.imp_right fun hle => hle.antisymm (List.length_pos_iff.mpr hover.1)
        constructor
        · apply hrest.cons hover.1 hkept
          intro next hnext i' hi'
          obtain rfl := Option.some.inj ((hfirst i rfl next hnext).symm.trans hi')
          rw [← hused, ← hb]
          exact hover.2
        · intro i' hi' first hrow
          rwa [← Option.some.inj hrow]
      · simp only [Bool.and_eq_true, Bool.not_eq_true', List.isEmpty_eq_false_iff,
          decide_eq_true_eq, not_and, not_lt] at hover
        obtain ⟨hrest, hfirst⟩ := ih hwidth (row ++ [i]) (used + b.width) (by simp [hused, hb]) (by
          by_cases hrow : row = []
          · exact Or.inr (by simp [hrow])
          · exact Or.inl (hover hrow))
        refine ⟨hrest, fun i' hi' => hfirst i' ?_⟩
        rw [List.head?_append, hi']
        rfl

/-! ## The order of the blocks -/

lemma getElem?_of_mem_byHeight {blocks : List (Block Rat)} {e : Nat × Block Rat}
    (he : e ∈ byHeight blocks) : blocks[e.1]? = some e.2 := by
  obtain ⟨⟨b, i⟩, hb, rfl⟩ := List.mem_map.mp ((stableSort_perm _ _ _).mem_iff.mp he)
  exact List.mem_zipIdx_iff_getElem?.mp hb

/-- Every block is listed in the place of its number. -/
lemma number_of_mem_zipIdx {blocks : List (Block Rat)} {e : Nat × Block Rat} {m : Nat}
    (he : (e, m) ∈ (blocks.zipIdx.map fun (b, i) => (i, b)).zipIdx) : e.1 = m := by
  have hm := List.mem_zipIdx_iff_getElem?.mp he
  simp only [List.getElem?_map, List.getElem?_zipIdx, Option.map_map, Option.map_eq_some_iff] at hm
  obtain ⟨b, -, he⟩ := hm
  rw [← he]
  exact zero_add m

/-- The blocks are sorted by decreasing height, equal ones in their order. -/
lemma byHeight_sorted (blocks : List (Block Rat)) : (byHeight blocks).Pairwise fun e e' =>
    e'.2.height ≤ e.2.height ∧ (e.2.height ≤ e'.2.height → e.1 ≤ e'.1) := by
  have hall : ∀ xs : List (Nat × Block Rat),
      xs.all (fun e => e.2.height == e.2.height) = true := by simp
  simp only [byHeight, stableSort, hall, if_true]
  -- a stable sort is a sort by the places as well
  rw [← List.mergeSort_zipIdx, List.pairwise_map]
  refine (List.pairwise_mergeSort (List.zipIdxLE_trans ?_) (List.zipIdxLE_total ?_) _).imp_of_mem ?_
  · intro a b c hab hbc
    simp only [Bool.not_eq_true', decide_eq_false_iff_not, neg_lt_neg_iff, not_lt] at hab hbc ⊢
    exact hbc.trans hab
  · intro a b
    simp only [Bool.or_eq_true, Bool.not_eq_true', decide_eq_false_iff_not, neg_lt_neg_iff, not_lt]
    exact le_total _ _
  · rintro ⟨e, m⟩ ⟨e', m'⟩ he he' hle
    rw [List.mem_mergeSort] at he he'
    rw [number_of_mem_zipIdx he, number_of_mem_zipIdx he']
    simp only [List.zipIdxLE, Bool.not_eq_true', decide_eq_false_iff_not, neg_lt_neg_iff,
      not_lt] at hle
    split_ifs at hle with hheight hequal
    · exact ⟨hheight, fun _ => by simpa using hle⟩
    · exact ⟨hheight, fun hge => absurd hge hequal⟩

/-! ## The shelves of some blocks -/

/-- The shelves of some blocks in an outline of a given width. -/
structure Shelved (outline : Rat) (blocks : List (Block Rat)) (rows : List (List Nat)) : Prop
    extends Greedy outline (widthOf blocks) rows where
  /-- Every block is on one shelf. -/
  perm : rows.flatten.Perm (List.range blocks.length)
  /-- Along the shelves, blocks get no higher, and of equally high ones the earlier comes first. -/
  sorted : rows.flatten.Pairwise fun i j =>
    heightOf blocks j < heightOf blocks i ∨ heightOf blocks j = heightOf blocks i ∧ i < j

/-- **What the shelves of some blocks are.** -/
theorem shelves_shelved (outline : Rat) (blocks : List (Block Rat)) :
    Shelved outline blocks (shelves outline blocks) := by
  have hentry : ∀ e ∈ byHeight blocks, blocks[e.1]? = some e.2 :=
    fun e he => getElem?_of_mem_byHeight he
  have hgreedy : Greedy outline (widthOf blocks) (shelves outline blocks) :=
    (cut_greedy (fun e he => (widthOf_eq (hentry e he)).symm) [] 0 rfl (Or.inr (Nat.zero_le 1))).1
  have hperm := shelves_perm outline blocks
  refine ⟨hgreedy, hperm, ?_⟩
  have hflatten : (shelves outline blocks).flatten = (byHeight blocks).map Prod.fst := by
    rw [shelves, cut_flatten, List.nil_append]
  have hnodup := hperm.nodup_iff.mpr List.nodup_range
  rw [hflatten] at hnodup ⊢
  rw [List.pairwise_map]
  refine ((byHeight_sorted blocks).and (List.pairwise_map.mp hnodup)).imp_of_mem ?_
  rintro e e' he he' ⟨⟨hheight, hplace⟩, hne⟩
  rw [heightOf_eq (hentry e he), heightOf_eq (hentry e' he')]
  rcases hheight.lt_or_eq with hlt | heq
  · exact Or.inl hlt
  · exact Or.inr ⟨heq, lt_of_le_of_ne (hplace heq.ge) hne⟩

section Rows

variable {outline : Rat} {blocks : List (Block Rat)} {rows : List (List Nat)} {row : List Nat}
    {i : Nat}

/-- No block is higher than its shelf. -/
lemma Shelved.le_rise (h : Shelved outline blocks rows) (hrow : row ∈ rows) (hi : i ∈ row) :
    heightOf blocks i ≤ rise blocks row := by
  have hsorted := h.sorted.sublist (List.sublist_flatten_of_mem hrow)
  obtain ⟨first, rest, rfl⟩ := List.exists_cons_of_ne_nil (h.ne_nil row hrow)
  rcases List.mem_cons.mp hi with rfl | hi
  · exact le_rfl
  · rcases List.rel_of_pairwise_cons hsorted hi with hlt | ⟨heq, -⟩
    · exact hlt.le
    · exact heq.le

end Rows

/-! ## How blocks on shelves lie to each other -/

/-- The pair of the shelves of some blocks. -/
structure Encodes (p : SequencePair) (n : Nat) (rows : List (List Nat)) : Prop where
  coherent : p.Coherent n
  positive : p.positive = rows.reverse.flatten
  negative : p.negative = rows.flatten

namespace Encodes

variable {n : Nat} {p : SequencePair} {rows : List (List Nat)} {row row' : List Nat}
    {k k' j j' i i' : Nat}

/-- On one shelf, a block is left of those behind it. -/
lemma leftOf (h : Encodes p n rows) (hrow : row ∈ rows) (hlt : j < j') (hi : row[j]? = some i)
    (hi' : row[j']? = some i') : p.LeftOf i i' := by
  have hpair : SequencePair.Precedes row i i' := SequencePair.precedes_iff.mpr ⟨j, j', hlt, hi, hi'⟩
  rw [SequencePair.LeftOf, h.positive, h.negative]
  exact ⟨hpair.trans (List.sublist_flatten_of_mem (List.mem_reverse.mpr hrow)),
    hpair.trans (List.sublist_flatten_of_mem hrow)⟩

/-- A block is below those on higher shelves. -/
lemma below (h : Encodes p n rows) (hk : rows[k]? = some row) (hk' : rows[k']? = some row')
    (hlt : k < k') (hi : i ∈ row) (hi' : i' ∈ row') : p.Below i i' := by
  have hlower : i ∈ (rows.take k').flatten :=
    List.mem_flatten.mpr ⟨row, List.mem_of_getElem? (by rw [List.getElem?_take_of_lt hlt, hk]), hi⟩
  have hupper : i' ∈ (rows.drop k').flatten :=
    List.mem_flatten.mpr
      ⟨row', List.mem_of_getElem? (i := 0) (by rw [List.getElem?_drop, add_zero, hk']), hi'⟩
  have happend : ∀ {xs ys : List Nat} {x y : Nat}, x ∈ xs → y ∈ ys →
      SequencePair.Precedes (xs ++ ys) x y :=
    fun hx hy => (List.singleton_sublist.mpr hx).append (List.singleton_sublist.mpr hy)
  have hreverse : ∀ {rows : List (List Nat)} {x : Nat}, x ∈ rows.flatten →
      x ∈ rows.reverse.flatten :=
    fun hx => (List.reverse_perm _).flatten.mem_iff.mpr hx
  rw [SequencePair.Below, h.positive, h.negative, ← List.take_append_drop k' rows,
    List.reverse_append, List.flatten_append, List.flatten_append]
  exact ⟨happend (hreverse hupper) (hreverse hlower), happend hlower hupper⟩

/-- Where a block is on the shelves. -/
lemma exists_slot (h : Encodes p n rows) (hi : i < n) :
    ∃ (k : Nat) (row : List Nat) (j : Nat), rows[k]? = some row ∧ row[j]? = some i := by
  have hmem : i ∈ rows.flatten := by
    rw [← h.negative]
    exact h.coherent.negative.mem_iff.mpr hi
  obtain ⟨row, hrow, hi⟩ := List.mem_flatten.mp hmem
  obtain ⟨k, hk⟩ := List.mem_iff_getElem?.mp hrow
  obtain ⟨j, hj⟩ := List.mem_iff_getElem?.mp hi
  exact ⟨k, row, j, hk, hj⟩

section Slots

variable (h : Encodes p n rows) (hk : rows[k]? = some row) (hk' : rows[k']? = some row')
  (hj : row[j]? = some i) (hj' : row'[j']? = some i')

include h hk hk' hj hj'

/-- **A block is left of those behind it on its shelf, and of no others.** -/
theorem leftOf_iff : p.LeftOf i i' ↔ k = k' ∧ j < j' := by
  have hmem := List.mem_of_getElem? hk
  constructor
  · rintro ⟨hpositive, hnegative⟩
    rcases lt_trichotomy k k' with hlt | rfl | hlt
    · exact absurd (h.below hk hk' hlt (List.mem_of_getElem? hj) (List.mem_of_getElem? hj')).1
        (h.coherent.positive.precedes_asymm hpositive)
    · obtain rfl := Option.some.inj (hk.symm.trans hk')
      refine ⟨rfl, lt_of_not_ge fun hle => ?_⟩
      rcases hle.lt_or_eq with hlt | rfl
      · exact h.coherent.positive.precedes_asymm hpositive (h.leftOf hmem hlt hj' hj).1
      · obtain rfl := Option.some.inj (hj.symm.trans hj')
        exact h.coherent.positive.precedes_asymm hpositive hpositive
    · exact absurd (h.below hk' hk hlt (List.mem_of_getElem? hj') (List.mem_of_getElem? hj)).2
        (h.coherent.negative.precedes_asymm hnegative)
  · rintro ⟨rfl, hlt⟩
    obtain rfl := Option.some.inj (hk.symm.trans hk')
    exact h.leftOf hmem hlt hj hj'

/-- **A block is below those on higher shelves, and below no others.** -/
theorem below_iff : p.Below i i' ↔ k < k' := by
  constructor
  · rintro ⟨hpositive, hnegative⟩
    rcases lt_trichotomy k k' with hlt | rfl | hlt
    · exact hlt
    · obtain rfl := Option.some.inj (hk.symm.trans hk')
      have hmem := List.mem_of_getElem? hk
      rcases lt_trichotomy j j' with hlt | rfl | hlt
      · exact absurd (h.leftOf hmem hlt hj hj').1 (h.coherent.positive.precedes_asymm hpositive)
      · obtain rfl := Option.some.inj (hj.symm.trans hj')
        exact absurd hpositive (h.coherent.positive.precedes_asymm hpositive)
      · exact absurd (h.leftOf hmem hlt hj' hj).2 (h.coherent.negative.precedes_asymm hnegative)
    · exact absurd (h.below hk' hk hlt (List.mem_of_getElem? hj') (List.mem_of_getElem? hj)).2
        (h.coherent.negative.precedes_asymm hnegative)
  · intro hlt
    exact h.below hk hk' hlt (List.mem_of_getElem? hj) (List.mem_of_getElem? hj')

end Slots

/-! ## Where packing puts them -/

section Pack

variable {l : Layout Rat} {c : Block Rat} (h : Encodes l.pair l.size rows)

include h

/-- Every block on a shelf is packed. -/
lemma exists_pack (hk : rows[k]? = some row) (hi : i ∈ row) : ∃ c, l.pack.blocks[i]? = some c := by
  have hmem : i ∈ l.pair.negative :=
    h.negative ▸ List.mem_flatten.mpr ⟨row, List.mem_of_getElem? hk, hi⟩
  have hlt : i < l.pack.size := Layout.pack_size h.coherent ▸ h.coherent.negative.mem_iff.mp hmem
  exact ⟨_, List.getElem?_eq_getElem hlt⟩

lemma exists_slot_of_pack (hc : l.pack.blocks[i]? = some c) :
    ∃ (k : Nat) (row : List Nat) (j : Nat), rows[k]? = some row ∧ row[j]? = some i :=
  h.exists_slot (Layout.pack_size h.coherent ▸ (List.getElem?_eq_some_iff.mp hc).1)

lemma xMax_pack (hc : l.pack.blocks[i]? = some c) : c.xMax = c.x + widthOf l.blocks i := by
  obtain ⟨b, hb, hwidth, -⟩ := Layout.getElem?_pack h.coherent hc
  rw [widthOf_eq hb, ← hwidth, Block.xMax]

lemma yMax_pack (hc : l.pack.blocks[i]? = some c) : c.yMax = c.y + heightOf l.blocks i := by
  obtain ⟨b, hb, -, hheight⟩ := Layout.getElem?_pack h.coherent hc
  rw [heightOf_eq hb, ← hheight, Block.yMax]

variable (hsides : ∀ b ∈ l.blocks, 0 ≤ b.width ∧ 0 ≤ b.height)

include hsides

/-- **A packed block stands behind those in front of it on its shelf.** -/
theorem pack_x (hk : rows[k]? = some row) (hj : row[j]? = some i)
    (hc : l.pack.blocks[i]? = some c) :
    c.x = sumBefore (widthOf l.blocks) row j := by
  -- the blocks left of a block are those in front of it, and the nearest one reaches furthest
  induction j using Nat.strong_induction_on generalizing i c with
  | _ j ih =>
    refine (Layout.pack_longest_x h.coherent hc).unique ?_
    cases j with
    | zero =>
        refine Or.inr ⟨Set.eq_empty_iff_forall_notMem.mpr ?_, sumBefore_zero _ _⟩
        rintro v ⟨i', b, hb, hleft, -⟩
        obtain ⟨k', row', j', hk', hj'⟩ := h.exists_slot_of_pack hb
        exact absurd ((h.leftOf_iff hk' hk hj' hj).mp hleft).2 (Nat.not_lt_zero j')
    | succ j =>
        refine Or.inl ⟨?_, ?_⟩
        · obtain ⟨i', hi'⟩ : ∃ i', row[j]? = some i' :=
            ⟨_, List.getElem?_eq_getElem (Nat.lt_of_succ_lt (List.getElem?_eq_some_iff.mp hj).1)⟩
          obtain ⟨b, hb⟩ := h.exists_pack hk (List.mem_of_getElem? hi')
          refine ⟨i', b, hb, (h.leftOf_iff hk hk hi' hj).mpr ⟨rfl, j.lt_succ_self⟩, ?_⟩
          rw [h.xMax_pack hb, ih j j.lt_succ_self hi' hb, sumBefore_succ hi']
        · rintro v ⟨i', b, hb, hleft, rfl⟩
          obtain ⟨k', row', j', hk', hj'⟩ := h.exists_slot_of_pack hb
          obtain ⟨rfl, hlt⟩ := (h.leftOf_iff hk' hk hj' hj).mp hleft
          obtain rfl := Option.some.inj (hk.symm.trans hk')
          rw [h.xMax_pack hb, ih j' hlt hj' hb, ← sumBefore_succ hj']
          exact sumBefore_mono (widthOf_nonneg hsides) hlt

/-- **A packed block stands on top of the first blocks of the shelves beneath**, if no block is
higher than its shelf. -/
theorem pack_y (hne : ∀ row ∈ rows, row ≠ [])
    (hrise : ∀ row ∈ rows, ∀ i ∈ row, heightOf l.blocks i ≤ rise l.blocks row)
    (hk : rows[k]? = some row) (hi : i ∈ row) (hc : l.pack.blocks[i]? = some c) :
    c.y = sumBefore (rise l.blocks) rows k := by
  -- the blocks below a block are those of lower shelves, and the first one of the next shelf
  -- reaches furthest
  induction k using Nat.strong_induction_on generalizing row i c with
  | _ k ih =>
    obtain ⟨j, hj⟩ := List.mem_iff_getElem?.mp hi
    refine (Layout.pack_longest_y h.coherent hc).unique ?_
    cases k with
    | zero =>
        refine Or.inr ⟨Set.eq_empty_iff_forall_notMem.mpr ?_, sumBefore_zero _ _⟩
        rintro v ⟨i', b, hb, hbelow, -⟩
        obtain ⟨k', row', j', hk', hj'⟩ := h.exists_slot_of_pack hb
        exact absurd ((h.below_iff hk' hk hj' hj).mp hbelow) (Nat.not_lt_zero k')
    | succ k =>
        refine Or.inl ⟨?_, ?_⟩
        · obtain ⟨row', hk'⟩ : ∃ row', rows[k]? = some row' :=
            ⟨_, List.getElem?_eq_getElem (Nat.lt_of_succ_lt (List.getElem?_eq_some_iff.mp hk).1)⟩
          obtain ⟨first, rest, rfl⟩ :=
            List.exists_cons_of_ne_nil (hne row' (List.mem_of_getElem? hk'))
          obtain ⟨b, hb⟩ := h.exists_pack hk' List.mem_cons_self
          refine ⟨first, b, hb, h.below hk' hk k.lt_succ_self List.mem_cons_self hi, ?_⟩
          rw [h.yMax_pack hb, ih k k.lt_succ_self hk' List.mem_cons_self hb, sumBefore_succ hk']
          rfl
        · rintro v ⟨i', b, hb, hbelow, rfl⟩
          obtain ⟨k', row', j', hk', hj'⟩ := h.exists_slot_of_pack hb
          have hlt := (h.below_iff hk' hk hj' hj).mp hbelow
          have hmem := List.mem_of_getElem? hj'
          calc b.yMax = sumBefore (rise l.blocks) rows k' + heightOf l.blocks i' := by
                rw [h.yMax_pack hb, ih k' hlt hk' hmem hb]
            _ ≤ sumBefore (rise l.blocks) rows k' + rise l.blocks row' :=
                add_le_add_right (hrise row' (List.mem_of_getElem? hk') i' hmem) _
            _ = sumBefore (rise l.blocks) rows (k' + 1) := (sumBefore_succ hk').symm
            _ ≤ sumBefore (rise l.blocks) rows (k + 1) := sumBefore_mono (rise_nonneg hsides) hlt

/-- **A packing of shelves is as high as the shelves are together.** -/
theorem boundingSides_pack (hne : ∀ row ∈ rows, row ≠ [])
    (hrise : ∀ row ∈ rows, ∀ i ∈ row, heightOf l.blocks i ≤ rise l.blocks row) :
    l.pack.boundingSides.2 = (rows.map (rise l.blocks)).sum := by
  rcases rows.eq_nil_or_concat' with rfl | ⟨lower, top, rfl⟩
  · have hempty : l.pack.blocks = [] := List.eq_nil_iff_forall_not_mem.mpr fun c hc => by
      obtain ⟨i, hi⟩ := List.mem_iff_getElem?.mp hc
      obtain ⟨k, row, j, hk, -⟩ := h.exists_slot_of_pack hi
      cases hk
    rw [Layout.boundingSides, hempty]
    rfl
  · -- the first block of the uppermost shelf reaches furthest
    have htop : (lower ++ [top])[lower.length]? = some top := List.getElem?_concat_length
    obtain ⟨first, rest, rfl⟩ := List.exists_cons_of_ne_nil (hne top (List.mem_of_getElem? htop))
    obtain ⟨c, hc⟩ := h.exists_pack htop List.mem_cons_self
    have hreach : c.yMax = ((lower ++ [first :: rest]).map (rise l.blocks)).sum := by
      rw [h.yMax_pack hc, h.pack_y hsides hne hrise htop List.mem_cons_self hc, ← sumBefore_length,
        List.length_append, List.length_singleton, sumBefore_succ htop]
      rfl
    refine le_antisymm ?_ (hreach ▸ (Layout.le_boundingSides (List.mem_of_getElem? hc)).2)
    refine (Layout.boundingSides_le_iff (u := 0)
        (List.ne_nil_of_mem (List.mem_of_getElem? hc))).2.mpr ?_
    intro b hb
    obtain ⟨i, hi⟩ := List.mem_iff_getElem?.mp hb
    obtain ⟨k, row, j, hk, hj⟩ := h.exists_slot_of_pack hi
    have hmem := List.mem_of_getElem? hj
    calc b.yMax = sumBefore (rise l.blocks) (lower ++ [first :: rest]) k + heightOf l.blocks i := by
          rw [h.yMax_pack hi, h.pack_y hsides hne hrise hk hmem hi]
      _ ≤ sumBefore (rise l.blocks) (lower ++ [first :: rest]) k + rise l.blocks row :=
          add_le_add_right (hrise row (List.mem_of_getElem? hk) i hmem) _
      _ = sumBefore (rise l.blocks) (lower ++ [first :: rest]) (k + 1) := (sumBefore_succ hk).symm
      _ ≤ sumBefore (rise l.blocks) (lower ++ [first :: rest]) (lower ++ [first :: rest]).length :=
          sumBefore_mono (rise_nonneg hsides) (List.getElem?_eq_some_iff.mp hk).1
      _ = ((lower ++ [first :: rest]).map (rise l.blocks)).sum := sumBefore_length _ _

end Pack

end Encodes

section Shelved

variable {outline : Rat} {l : Layout Rat} {rows : List (List Nat)} {row : List Nat} {k j i : Nat}
  (h : Encodes l.pair l.size rows) (hshelved : Shelved outline l.blocks rows)
  (hsides : ∀ b ∈ l.blocks, 0 ≤ b.width ∧ 0 ≤ b.height)

include h hshelved hsides

/-- Packing moves every block to its place on the shelves. -/
lemma Shelved.getElem?_pack (hk : rows[k]? = some row) (hj : row[j]? = some i) :
    ∃ b, l.blocks[i]? = some b ∧
    l.pack.blocks[i]? = some (b.place (sumBefore (widthOf l.blocks) row j)
      (sumBefore (rise l.blocks) rows k)) := by
  have hi := List.mem_of_getElem? hj
  obtain ⟨c, hc⟩ := h.exists_pack hk hi
  have harranged := hc
  rw [Layout.pack_eq_arrange h.coherent, Layout.getElem?_arrange] at harranged
  obtain ⟨b, hb, rfl⟩ := Option.map_eq_some_iff.mp harranged
  refine ⟨b, hb, hc.trans ?_⟩
  rw [← h.pack_x hsides hk hj hc,
    ← h.pack_y hsides hshelved.ne_nil (fun row hrow i hi => hshelved.le_rise hrow hi) hk hi hc]
  rfl

/-- No packed block reaches beyond the outline on the right, unless it is too wide and alone on its
shelf. -/
lemma Shelved.xMax_pack (hrow : row ∈ rows) (hi : i ∈ row) {c : Block Rat}
    (hc : l.pack.blocks[i]? = some c) : c.xMax ≤ outline ∨ row = [i] ∧ outline < c.width := by
  obtain ⟨k, hk⟩ := List.mem_iff_getElem?.mp hrow
  obtain ⟨j, hj⟩ := List.mem_iff_getElem?.mp hi
  have hreach : c.xMax ≤ (row.map (widthOf l.blocks)).sum := by
    rw [h.xMax_pack hc, h.pack_x hsides hk hj hc, ← sumBefore_succ hj, ← sumBefore_length]
    exact sumBefore_mono (widthOf_nonneg hsides) (List.getElem?_eq_some_iff.mp hj).1
  rcases hshelved.fits row hrow with hfits | hsingle
  · exact Or.inl (hreach.trans hfits)
  · obtain ⟨i', rfl⟩ := List.length_eq_one_iff.mp hsingle
    obtain rfl := List.mem_singleton.mp hi
    obtain ⟨b, hb, hwidth, -⟩ := Layout.getElem?_pack h.coherent hc
    rw [List.map_singleton, List.sum_singleton, widthOf_eq hb, ← hwidth] at hreach
    exact (le_or_gt c.width outline).imp hreach.trans fun hover => ⟨rfl, hover⟩

end Shelved

/-! ## The starting sequences -/

/-- The starting sequences are accepted, and make up the pair of the shelves. -/
lemma setSequences_sequences (l : Layout Rat) (outline : Rat) : ∃ l' : Layout Rat,
    (Layout.setSequences ((sequences outline l.blocks).1.map fun (i : Nat) => (i : Int))
      ((sequences outline l.blocks).2.map fun (i : Nat) => (i : Int))).run l = .ok () l' ∧
      l'.blocks = l.blocks ∧ Encodes l'.pair l'.size (shelves outline l.blocks) := by
  obtain ⟨hpositive, hnegative⟩ := sequences_perm outline l.blocks
  let q := SequencePair.ofSequences l.size (sequences outline l.blocks).1
    (sequences outline l.blocks).2
  refine ⟨{ l with pair := q }, ?_, rfl, ?_⟩
  · rw [Layout.run_setSequences_ok_iff]
    exact ⟨SequencePair.ofPermutations_natCast hpositive hnegative, rfl⟩
  · exact ⟨SequencePair.coherent_ofSequences hpositive hnegative, rfl, rfl⟩

/-- **The starting sequences pack shelves.**  For any blocks without negative sides and an outline
of any width, the starting sequences are rearrangements of the blocks and are accepted.  Packing
them leaves every block at the sum of the widths in front of it on its shelf and of the heights of
the first blocks of the shelves beneath.  No block reaches beyond the outline on the right unless it
is too wide and alone on its shelf, and the packing is as high as the first blocks of all shelves
together. -/
theorem sequences_pack {l : Layout Rat} (hsides : ∀ b ∈ l.blocks, 0 ≤ b.width ∧ 0 ≤ b.height)
    (outline : Rat) :
    Shelved outline l.blocks (shelves outline l.blocks) ∧
      ((sequences outline l.blocks).1.Perm (List.range l.size) ∧
        (sequences outline l.blocks).2.Perm (List.range l.size)) ∧
      ∃ l', (Layout.setSequences ((sequences outline l.blocks).1.map fun (i : Nat) => (i : Int))
          ((sequences outline l.blocks).2.map fun (i : Nat) => (i : Int))).run l = .ok () l' ∧
        (∀ (k : Nat) (row : List Nat) (j i : Nat), (shelves outline l.blocks)[k]? = some row →
          row[j]? = some i → ∃ b, l.blocks[i]? = some b ∧
            l'.pack.blocks[i]? = some (b.place (sumBefore (widthOf l.blocks) row j)
              (sumBefore (rise l.blocks) (shelves outline l.blocks) k))) ∧
        (∀ row ∈ shelves outline l.blocks, ∀ i ∈ row, ∀ c, l'.pack.blocks[i]? = some c →
          c.xMax ≤ outline ∨ row = [i] ∧ outline < c.width) ∧
        l'.pack.boundingSides.2 = ((shelves outline l.blocks).map (rise l.blocks)).sum := by
  have hshelved := shelves_shelved outline l.blocks
  obtain ⟨l', hrun, hblocks, h⟩ := setSequences_sequences l outline
  refine ⟨hshelved, sequences_perm outline l.blocks, l', hrun, ?_⟩
  rw [← hblocks] at h hshelved hsides ⊢
  refine ⟨?_, ?_, ?_⟩
  · intro k row j i hk hj
    exact hshelved.getElem?_pack h hsides hk hj
  · intro row hrow i hi c hc
    exact hshelved.xMax_pack h hsides hrow hi hc
  · exact h.boundingSides_pack hsides hshelved.ne_nil fun row hrow i hi => hshelved.le_rise hrow hi

/-- A long block and two tall ones. -/
def longAndTall : Layout Rat :=
  .ofBlocks [⟨"long", .hard 5 1 [.r0] .r0, 0, 0, 5, 1, false⟩,
    ⟨"left", .hard 2 3 [.r0] .r0, 0, 0, 2, 3, false⟩,
    ⟨"right", .hard 1 3 [.r0] .r0, 0, 0, 1, 3, false⟩]

/-- The tall blocks fill the lower shelf, and the long one is alone above them and too wide for the
outline. -/
theorem sequences_pack_longAndTall :
    (∀ b ∈ longAndTall.blocks, 0 ≤ b.width ∧ 0 ≤ b.height) ∧
      shelves 4 longAndTall.blocks = [[1, 2], [0]] ∧
      ∃ l', (Layout.setSequences [0, 1, 2] [1, 2, 0]).run longAndTall = .ok () l' ∧
        (∃ c, l'.pack.blocks[2]? = some c ∧ c.x = 2 ∧ c.y = 0 ∧ c.xMax ≤ 4) ∧
        (∃ c, l'.pack.blocks[0]? = some c ∧ c.x = 0 ∧ c.y = 3 ∧ 4 < c.width) ∧
        l'.pack.boundingSides.2 = 4 := by
  have hsides : ∀ b ∈ longAndTall.blocks, 0 ≤ b.width ∧ 0 ≤ b.height := by decide +kernel
  have hrows : shelves 4 longAndTall.blocks = [[1, 2], [0]] := by cbv
  have hsequences : sequences 4 longAndTall.blocks = ([0, 1, 2], [1, 2, 0]) := by
    rw [sequences, hrows]; rfl
  obtain ⟨-, -, l', hrun, hplaces, hright, hheight⟩ := sequences_pack hsides 4
  rw [hsequences] at hrun
  rw [hrows] at hplaces hright hheight
  obtain ⟨b, hb, hc⟩ := hplaces 0 [1, 2] 1 2 rfl rfl
  obtain ⟨b', hb', hc'⟩ := hplaces 1 [0] 0 0 rfl rfl
  cases hb
  cases hb'
  refine ⟨hsides, hrows, l', hrun, ⟨_, hc, ?_, ?_, ?_⟩, ⟨_, hc', ?_, ?_, ?_⟩, hheight.trans ?_⟩
  · decide +kernel
  · decide +kernel
  · exact (hright [1, 2] (by simp) 2 (by simp) _ hc).resolve_right (by simp)
  all_goals decide +kernel

end Shelf

end BlockPlan
