import BlockPlan.Proofs.Packing.Arrange
import BlockPlan.Proofs.Packing.Staircase

/-!
# Packing computes longest paths

The staircase over the blocks in front of a block stands for their far edges, so that a sweep puts
every block at the largest far edge among those in front that have a smaller key.  The blocks in
front with smaller keys are the blocks left of it in the one sweep and the blocks below it in the
other.

The numbers need not be exact: a far edge may be a rounded sum, as long as any two numbers can be
compared.

* `climb_standsFor`, `SettledBelow.longest` — what the staircase over a sequence stands for, and
  where a block stands that stands where it belongs.
* `leftOf_iff`, `below_iff`, `inFront_iff` — the two relations as slots and keys, and either of them
  along its axis.
* `pack_longest` — a packed block stands at the largest far edge in front of it, along either axis.
* `edgesLeftOf`, `edgesBelow` — the far edges of the blocks left of a block, and below it.
* **`pack_longestPaths`** — packing puts every block at the largest of these far edges.
-/

namespace BlockPlan.Layout

variable {α : Type} [Scalar α]

/-! ## The staircase over a sequence -/

section Settled

variable [Std.IsLinearPreorder α] [Std.LawfulOrderLT α] {axis : Axis} {key : Nat → Int}
  {blocks : List (Block α)}

/-- The staircase over some blocks stands for their far edges. -/
lemma climb_standsFor (sequence : List Nat) {stair : Staircase α} {entries : Set (Int × α)}
    (h : stair.StandsFor entries) :
    (climb axis key blocks stair sequence).StandsFor
      (entries ∪ {e | ∃ i ∈ sequence, ∃ b, blocks[i]? = some b ∧ e = (key i, b.farEdge axis)}) := by
  induction sequence generalizing stair entries with
  | nil => simpa [climb] using h
  | cons i rest ih =>
      cases hb : blocks[i]? with
      | none =>
          have hrest := ih h
          simpa [climb, hb] using hrest
      | some b =>
          have hrest := ih (h.insert (key i) (b.farEdge axis))
          have hset : Insert.insert (key i, b.farEdge axis) entries
                ∪ {e | ∃ i ∈ rest, ∃ b, blocks[i]? = some b ∧ e = (key i, b.farEdge axis)}
              = entries ∪ {e | ∃ j ∈ i :: rest, ∃ b, blocks[j]? = some b ∧
                e = (key j, b.farEdge axis)} := by
            ext e
            simp [hb, or_assoc, or_left_comm]
          rw [hset] at hrest
          simpa [climb, hb] using hrest

/-- A block that stands where it belongs stands at the largest far edge of the blocks in front of it
that have smaller keys. -/
lemma SettledBelow.longest {start : Int} {sequence : List Nat} {q j : Nat} {c : Block α}
    (h : SettledBelow axis key start sequence blocks) (hq : (q : Int) < start)
    (hj : sequence[q]? = some j) (hc : blocks[j]? = some c) :
    LargestOrZero {v | ∃ p i b, p < q ∧ sequence[p]? = some i ∧ blocks[i]? = some b ∧
      key i < key j ∧ b.farEdge axis = v} (c.coordinate axis) := by
  have hstands : (climb axis key blocks {} (sequence.take q)).StandsFor
      (∅ ∪ {e | ∃ i ∈ sequence.take q, ∃ b, blocks[i]? = some b ∧ e = (key i, b.farEdge axis)}) :=
    climb_standsFor (sequence.take q) Staircase.standsFor_empty
  have hquery := hstands.query (key j)
  rw [← h q j c hq hj hc] at hquery
  convert hquery using 2
  ext v
  constructor
  · rintro ⟨p, i, b, hpq, hi, hb, hkey, rfl⟩
    have hmem : i ∈ sequence.take q :=
      List.mem_of_getElem? (by rw [List.getElem?_take_of_lt hpq, hi])
    exact ⟨_, Or.inr ⟨i, hmem, b, hb, rfl⟩, hkey, rfl⟩
  · rintro ⟨e, hnone | ⟨i, hmem, b, hb, rfl⟩, hkey, rfl⟩
    · exact absurd hnone (Set.notMem_empty e)
    · obtain ⟨p, hp⟩ := List.mem_iff_getElem?.mp hmem
      rw [List.getElem?_take] at hp
      split_ifs at hp with hpq
      exact ⟨p, i, b, hpq, hp, hb, hkey, rfl⟩

end Settled

/-! ## The two relations -/

omit [Scalar α] in
/-- The sequence along which an axis is swept. -/
def order (l : Layout α) : Axis → List Nat
  | .x => l.pair.positive
  | .y => l.pair.negative

omit [Scalar α] in
/-- The key of a block in the sweep along an axis. -/
def keyAlong (l : Layout α) : Axis → Nat → Int
  | .x => l.keyX
  | .y => l.keyY

omit [Scalar α] in
/-- Whether block `i` lies in front of block `j` along an axis: left of it, or below it. -/
def InFront (l : Layout α) : Axis → Nat → Nat → Prop
  | .x => l.pair.LeftOf
  | .y => l.pair.Below

section Relations

variable {l : Layout α} {axis : Axis} {p q i j : Nat}

omit [Scalar α] in
lemma leftOf_iff (h : l.Coherent) (hi : l.pair.positive[p]? = some i)
    (hj : l.pair.positive[q]? = some j) : l.pair.LeftOf i j ↔ p < q ∧ l.keyX i < l.keyX j := by
  obtain ⟨p', _, hp'⟩ := h.negative.exists_slot (h.positive.mem_iff.mp (List.mem_of_getElem? hi))
  obtain ⟨q', _, hq'⟩ := h.negative.exists_slot (h.positive.mem_iff.mp (List.mem_of_getElem? hj))
  rw [SequencePair.LeftOf, h.positive.precedes_iff hi hj, h.negative.precedes_iff hp' hq', keyX,
    keyX, SequencePair.slotIn, SequencePair.slotIn, SequencePair.slots, h.negative.getD_slot hp',
    h.negative.getD_slot hq', Nat.cast_lt]

omit [Scalar α] in
lemma below_iff (h : l.Coherent) (hi : l.pair.negative[p]? = some i)
    (hj : l.pair.negative[q]? = some j) : l.pair.Below i j ↔ p < q ∧ l.keyY i < l.keyY j := by
  obtain ⟨p', _, hp'⟩ := h.positive.exists_slot (h.negative.mem_iff.mp (List.mem_of_getElem? hi))
  obtain ⟨q', _, hq'⟩ := h.positive.exists_slot (h.negative.mem_iff.mp (List.mem_of_getElem? hj))
  rw [SequencePair.Below, h.positive.precedes_iff hq' hp', h.negative.precedes_iff hi hj, keyY,
    keyY, SequencePair.slotIn, SequencePair.slotIn, SequencePair.slots, h.positive.getD_slot hp',
    h.positive.getD_slot hq', and_comm]
  omega

omit [Scalar α] in
/-- In front of a block along an axis are the blocks that come first and have smaller keys. -/
lemma inFront_iff (h : l.Coherent) (hi : (l.order axis)[p]? = some i)
    (hj : (l.order axis)[q]? = some j) :
    l.InFront axis i j ↔ p < q ∧ l.keyAlong axis i < l.keyAlong axis j := by
  cases axis with
  | x => exact leftOf_iff h hi hj
  | y => exact below_iff h hi hj

omit [Scalar α] in
lemma exists_slot (h : l.Coherent) (axis : Axis) (hi : i < l.size) :
    ∃ p : Nat, (p : Int) < l.size ∧ (l.order axis)[p]? = some i := by
  cases axis with
  | x =>
      obtain ⟨p, hp, hpi⟩ := h.positive.exists_slot hi
      exact ⟨p, Nat.cast_lt.mpr hp, hpi⟩
  | y =>
      obtain ⟨p, hp, hpi⟩ := h.negative.exists_slot hi
      exact ⟨p, Nat.cast_lt.mpr hp, hpi⟩

omit [Scalar α] in
lemma lt_size_of_order (h : l.Coherent) (hi : (l.order axis)[p]? = some i) : i < l.size := by
  cases axis with
  | x => exact h.positive.mem_iff.mp (List.mem_of_getElem? hi)
  | y => exact h.negative.mem_iff.mp (List.mem_of_getElem? hi)

lemma pack_settled (h : l.Coherent) (axis : Axis) :
    SettledBelow axis (l.keyAlong axis) l.size (l.order axis) l.pack.blocks := by
  cases axis with
  | x => exact pack_settledX h l.size
  | y => exact pack_settledY h l.size

lemma getElem?_pack (h : l.Coherent) {i : Nat} {c : Block α} (hc : l.pack.blocks[i]? = some c) :
    ∃ b, l.blocks[i]? = some b ∧ c.width = b.width ∧ c.height = b.height := by
  rw [pack_eq_arrange h, getElem?_arrange] at hc
  obtain ⟨b, hb, rfl⟩ := Option.map_eq_some_iff.mp hc
  exact ⟨b, hb, rfl, rfl⟩

lemma lt_size_of_pack (h : l.Coherent) {c : Block α} (hc : l.pack.blocks[i]? = some c) :
    i < l.size := by
  rw [← pack_size h]
  exact (List.getElem?_eq_some_iff.mp hc).1

end Relations

/-! ## Longest paths -/

/-- The right edges of the blocks left of block `j`. -/
def edgesLeftOf (l : Layout α) (j : Nat) : Set α :=
  {v | ∃ i b, l.blocks[i]? = some b ∧ l.pair.LeftOf i j ∧ b.xMax = v}

/-- The upper edges of the blocks below block `j`. -/
def edgesBelow (l : Layout α) (j : Nat) : Set α :=
  {v | ∃ i b, l.blocks[i]? = some b ∧ l.pair.Below i j ∧ b.yMax = v}

variable {l : Layout α} [Std.IsLinearPreorder α] [Std.LawfulOrderLT α]

/-- Along either axis a packed block stands at the largest far edge of the blocks in front of it. -/
theorem pack_longest (h : l.Coherent) (axis : Axis) {j : Nat} {c : Block α}
    (hc : l.pack.blocks[j]? = some c) :
    LargestOrZero {v | ∃ i b, l.pack.blocks[i]? = some b ∧ l.InFront axis i j ∧ b.farEdge axis = v}
      (c.coordinate axis) := by
  obtain ⟨q, hq, hj⟩ := exists_slot h axis (lt_size_of_pack h hc)
  convert (pack_settled h axis).longest hq hj hc using 2
  ext v
  constructor
  · rintro ⟨i, b, hb, hfront, rfl⟩
    obtain ⟨p, -, hp⟩ := exists_slot h axis (lt_size_of_pack h hb)
    obtain ⟨hpq, hkey⟩ := (inFront_iff h hp hj).mp hfront
    exact ⟨p, i, b, hpq, hp, hb, hkey, rfl⟩
  · rintro ⟨p, i, b, hpq, hp, hb, hkey, rfl⟩
    exact ⟨i, b, hb, (inFront_iff h hp hj).mpr ⟨hpq, hkey⟩, rfl⟩

/-- A packed block stands at the largest right edge of the blocks left of it. -/
lemma pack_longest_x (h : l.Coherent) {j : Nat} {c : Block α} (hc : l.pack.blocks[j]? = some c) :
    LargestOrZero (l.pack.edgesLeftOf j) c.x :=
  pack_longest h .x hc

/-- A packed block stands at the largest upper edge of the blocks below it. -/
lemma pack_longest_y (h : l.Coherent) {j : Nat} {c : Block α} (hc : l.pack.blocks[j]? = some c) :
    LargestOrZero (l.pack.edgesBelow j) c.y :=
  pack_longest h .y hc

/-- **Packing computes longest paths.**  Wherever the blocks stood, packing moves them and changes
nothing else, and then every block has its left edge at the largest right edge of the blocks that
precede it in both sequences, and its lower edge at the largest upper edge of the blocks that follow
it in the positive sequence and precede it in the negative one, or at zero if there are none. -/
theorem pack_longestPaths (h : l.Coherent) :
    l.pack = l.arrange l.pack.points ∧ (∀ points : Nat → α × α, (l.arrange points).pack = l.pack) ∧
      ∀ (j : Nat) (c : Block α), l.pack.blocks[j]? = some c →
        LargestOrZero (l.pack.edgesLeftOf j) c.x ∧ LargestOrZero (l.pack.edgesBelow j) c.y := by
  refine ⟨pack_eq_arrange h, pack_arrange h, ?_⟩
  intro j c hc
  exact ⟨pack_longest_x h hc, pack_longest_y h hc⟩

/-- The tall block of two stands at the right edge of the wide one. -/
theorem pack_longestPaths_wideAndTall :
    wideAndTall.Coherent ∧ ∃ c, wideAndTall.pack.blocks[1]? = some c ∧
      LargestOrZero (wideAndTall.pack.edgesLeftOf 1) c.x ∧ c.x = 2 ∧
      LargestOrZero (wideAndTall.pack.edgesBelow 1) c.y ∧ c.y = 0 := by
  have h : wideAndTall.Coherent :=
    SequencePair.coherent_ofSequences (List.Perm.refl _) (List.Perm.refl _)
  have hc : wideAndTall.pack.blocks[1]?
      = some ⟨"tall", .hard 1 3 [.r0] .r0, 2, 0, 1, 3, false⟩ := by decide +kernel
  obtain ⟨hx, hy⟩ := (pack_longestPaths h).2.2 1 _ hc
  exact ⟨h, _, hc, hx, rfl, hy, rfl⟩

end BlockPlan.Layout
