import Mathlib
import BlockPlan.Packing.Layout

/-!
# What a sweep leaves behind

`Layout.sweep` threads a staircase and the list of blocks through a sequence.  Here its result is
described without the recursion: `climb` is the staircase over the blocks of a sequence where they
stand, and a sweep is characterised by one equation for every block (`Swept`): a block that is moved
stands at the height of the staircase over the swept blocks in front of it.

* **`sweep_swept`** — a sweep satisfies these equations.
* `Swept.settled` — a block that stands where the staircase in front of it says is not moved.
* **`sweep_eq_sweep_zero`** — a sweep may start behind blocks that already stand where they belong.
* `Swept.along_congr` — where a sweep from the front puts blocks does not depend on where they
  stood.
* `SettledBelow.transfer` — where blocks stand along an axis depends on the front of the sequence,
  its keys, and the blocks along that axis.

Nothing here needs a law of the numbers.
-/

namespace BlockPlan

variable {α : Type}

/-! ## Axes -/

namespace Block

@[simp] lemma moveTo_coordinate (axis : Axis) (b : Block α) :
    b.moveTo axis (b.coordinate axis) = b := by
  cases axis <;> rfl

@[simp] lemma coordinate_moveTo (axis : Axis) (v : α) (b : Block α) :
    (b.moveTo axis v).coordinate axis = v := by
  cases axis <;> rfl

@[simp] lemma extent_moveTo (axis other : Axis) (v : α) (b : Block α) :
    (b.moveTo axis v).extent other = b.extent other := by
  cases axis <;> cases other <;> rfl

lemma coordinate_moveTo_ne {axis other : Axis} (h : other ≠ axis) (v : α) (b : Block α) :
    (b.moveTo axis v).coordinate other = b.coordinate other := by
  cases axis <;> cases other <;> first | rfl | exact absurd rfl h

variable [Scalar α]

/-- The far edge of a block along an axis. -/
def farEdge (axis : Axis) (b : Block α) : α := b.coordinate axis + b.extent axis

omit [Scalar α] in
/-- All that a sweep along an axis sees of a block. -/
def along (axis : Axis) (b : Block α) : α × α := (b.coordinate axis, b.extent axis)

lemma farEdge_eq (axis : Axis) (b : Block α) :
    b.farEdge axis = (b.along axis).1 + (b.along axis).2 := rfl

end Block

variable [Scalar α]

namespace Layout

/-! ## The staircase over a sequence -/

/-- The staircase over the blocks of a sequence where they stand. -/
def climb (axis : Axis) (key : Nat → Int) (blocks : List (Block α)) (stair : Staircase α)
    (sequence : List Nat) : Staircase α :=
  sequence.foldl
    (fun stair i =>
      match blocks[i]? with
      | some b => stair.insert (key i) (b.farEdge axis)
      | none => stair)
    stair

/-- The staircase depends on nothing but the keys and the blocks along the axis. -/
lemma climb_congr {axis : Axis} {key key' : Nat → Int} {blocks blocks' : List (Block α)}
    {sequence : List Nat} (hkey : ∀ i ∈ sequence, key i = key' i)
    (halong : ∀ i ∈ sequence,
      (blocks[i]?).map (Block.along axis) = (blocks'[i]?).map (Block.along axis))
    (stair : Staircase α) :
    climb axis key blocks stair sequence = climb axis key' blocks' stair sequence := by
  induction sequence generalizing stair with
  | nil => rfl
  | cons i rest ih =>
      simp only [climb, List.foldl_cons]
      have hhead : (match blocks[i]? with
            | some b => stair.insert (key i) (b.farEdge axis)
            | none => stair)
          = (match blocks'[i]? with
            | some b => stair.insert (key' i) (b.farEdge axis)
            | none => stair) := by
        have hi := halong i (by simp)
        rw [hkey i (by simp)]
        cases hb : blocks[i]? <;> cases hb' : blocks'[i]? <;> simp_all [Block.farEdge_eq]
      rw [hhead]
      exact ih (fun j hj => hkey j (by simp [hj])) (fun j hj => halong j (by simp [hj])) _

/-! ## The equations of a sweep -/

/-- What a sweep makes of some blocks: blocks outside the sequence stay as they are, a block in
front of slot `start` stays where it is, and any other one stands at the height of the staircase
over the swept blocks in front of it. -/
structure Swept (axis : Axis) (key : Nat → Int) (start : Int) (slot : Nat) (sequence : List Nat)
    (stair : Staircase α) (blocks swept : List (Block α)) : Prop where
  length : swept.length = blocks.length
  others : ∀ i, i ∉ sequence → swept[i]? = blocks[i]?
  entries : ∀ (p i : Nat) (b : Block α), sequence[p]? = some i → blocks[i]? = some b →
    swept[i]? = some (if start ≤ (slot + p : Nat) then
      b.moveTo axis ((climb axis key swept stair (sequence.take p)).query (key i)) else b)

section Cons

variable {axis : Axis} {key : Nat → Int} {start : Int} {slot j : Nat} {rest : List Nat}
  {stair : Staircase α} {blocks swept : List (Block α)}

/-- A slot without a block is passed over. -/
lemma Swept.cons_none (hj : blocks[j]? = none) (hmem : j ∉ rest)
    (hrest : Swept axis key start (slot + 1) rest stair blocks swept) :
    Swept axis key start slot (j :: rest) stair blocks swept := by
  refine ⟨hrest.length, ?_, ?_⟩
  · intro i hi
    rw [List.mem_cons, not_or] at hi
    exact hrest.others i hi.2
  · intro p i b hp hb
    cases p with
    | zero =>
        rw [List.getElem?_cons_zero, Option.some.injEq] at hp
        rw [← hp, hj] at hb
        exact absurd hb (by simp)
    | succ p =>
        rw [hrest.entries p i b hp hb, List.take_succ_cons, Nat.add_right_comm, Nat.add_assoc]
        simp only [climb, List.foldl_cons]
        rw [hrest.others j hmem, hj]

/-- A block is moved, if it is its turn, and then stands in the way of those behind it. -/
lemma Swept.cons_some {c moved : Block α} (hj : blocks[j]? = some c) (hmem : j ∉ rest)
    (hmoved : moved = if start ≤ (slot : Int) then c.moveTo axis (stair.query (key j)) else c)
    (hrest : Swept axis key start (slot + 1) rest
      (stair.insert (key j) (moved.coordinate axis + moved.extent axis))
      (blocks.set j moved) swept) : Swept axis key start slot (j :: rest) stair blocks swept := by
  have hlt : j < blocks.length := (List.getElem?_eq_some_iff.mp hj).1
  -- the sweep over the rest does not come back to the block
  have hhead := (hrest.others j hmem).trans (List.getElem?_set_self hlt)
  refine ⟨by rw [hrest.length, List.length_set], ?_, ?_⟩
  · intro i hi
    rw [List.mem_cons, not_or] at hi
    rw [hrest.others i hi.2, List.getElem?_set_ne (Ne.symm hi.1)]
  · intro p i b hp hb
    cases p with
    | zero =>
        rw [List.getElem?_cons_zero, Option.some.injEq] at hp
        subst hp
        rw [hj, Option.some.injEq] at hb
        subst hb
        rw [hhead, hmoved]
        rfl
    | succ p =>
        rw [List.getElem?_cons_succ] at hp
        have hne : i ≠ j := by
          rintro rfl
          exact hmem (List.mem_of_getElem? hp)
        rw [hrest.entries p i b hp (by rw [List.getElem?_set_ne (Ne.symm hne), hb]),
          List.take_succ_cons, Nat.add_right_comm, Nat.add_assoc]
        simp only [climb, List.foldl_cons]
        rw [hhead]
        rfl

end Cons

/-- **A sweep satisfies the equations.** -/
theorem sweep_swept (axis : Axis) (key : Nat → Int) (start : Int) {sequence : List Nat}
    (hnodup : sequence.Nodup) : ∀ (slot : Nat) (stair : Staircase α) (blocks : List (Block α)),
    Swept axis key start slot sequence stair blocks
      (sweep axis key start slot sequence stair blocks) := by
  induction sequence with
  | nil =>
      intro slot stair blocks
      exact ⟨rfl, fun _ _ => rfl, fun p i b hp => by simp at hp⟩
  | cons j rest ih =>
      intro slot stair blocks
      rw [List.nodup_cons] at hnodup
      cases hj : blocks[j]? with
      | none =>
          simp only [sweep, hj]
          exact Swept.cons_none hj hnodup.1 (ih hnodup.2 (slot + 1) stair blocks)
      | some c =>
          simp only [sweep, hj]
          exact Swept.cons_some hj hnodup.1 rfl (ih hnodup.2 (slot + 1) _ _)

section Swept

variable {axis : Axis} {key : Nat → Int} {start : Int} {sequence : List Nat}
  {blocks swept : List (Block α)}

lemma Swept.getElem?_none {slot : Nat} {stair : Staircase α}
    (h : Swept axis key start slot sequence stair blocks swept) {i : Nat}
    (hb : blocks[i]? = none) : swept[i]? = none := by
  rw [List.getElem?_eq_none_iff, h.length]
  exact List.getElem?_eq_none_iff.mp hb

/-- A sweep leaves the blocks in front of its start alone. -/
lemma Swept.front {slot : Nat} {stair : Staircase α}
    (h : Swept axis key start slot sequence stair blocks swept) {p i : Nat}
    (hp : ((slot + p : Nat) : Int) < start) (hi : sequence[p]? = some i) :
    swept[i]? = blocks[i]? := by
  cases hb : blocks[i]? with
  | none => exact h.getElem?_none hb
  | some b => rw [h.entries p i b hi hb, if_neg (by omega)]

/-- A sweep changes at most the coordinate along its axis. -/
lemma Swept.moved {slot : Nat} {stair : Staircase α}
    (h : Swept axis key start slot sequence stair blocks swept) {i : Nat} {b : Block α}
    (hb : blocks[i]? = some b) : ∃ v, swept[i]? = some (b.moveTo axis v) := by
  by_cases hi : i ∈ sequence
  · obtain ⟨p, hp⟩ := List.mem_iff_getElem?.mp hi
    rw [h.entries p i b hp hb]
    split_ifs
    · exact ⟨_, rfl⟩
    · exact ⟨b.coordinate axis, by rw [Block.moveTo_coordinate]⟩
  · exact ⟨b.coordinate axis, by rw [h.others i hi, hb, Block.moveTo_coordinate]⟩

/-- The blocks up to a slot that stand where the staircase in front of them says. -/
def SettledBelow (axis : Axis) (key : Nat → Int) (start : Int) (sequence : List Nat)
    (blocks : List (Block α)) : Prop :=
  ∀ (p i : Nat) (b : Block α), (p : Int) < start → sequence[p]? = some i → blocks[i]? = some b →
    b.coordinate axis = (climb axis key blocks {} (sequence.take p)).query (key i)

/-- Two lists that agree on the entries of a sequence in front of a place agree on its members
there. -/
lemma getElem?_eq_of_mem_take {β : Type} {xs ys : List β} {sequence : List Nat} {p : Nat}
    (h : ∀ (q : Nat), q < p → ∀ i, sequence[q]? = some i → xs[i]? = ys[i]?) :
    ∀ i ∈ sequence.take p, xs[i]? = ys[i]? := by
  intro i hi
  obtain ⟨q, hq⟩ := List.mem_iff_getElem?.mp hi
  rw [List.getElem?_take] at hq
  split_ifs at hq with hlt
  exact h q hlt i hq

/-- Blocks that stand where they belong are not moved by a sweep from the front. -/
lemma Swept.settled (h : Swept axis key 0 0 sequence {} blocks swept)
    (hsettled : SettledBelow axis key start sequence blocks) :
    ∀ (p : Nat), (p : Int) < start → ∀ i, sequence[p]? = some i → swept[i]? = blocks[i]? := by
  intro p
  induction p using Nat.strong_induction_on with
  | _ p ih =>
    intro hp i hi
    have hfront : climb axis key swept {} (sequence.take p)
        = climb axis key blocks {} (sequence.take p) := by
      refine climb_congr (fun _ _ => rfl) (fun j hj => ?_) _
      rw [getElem?_eq_of_mem_take (fun q hq j hj => ih q hq (by omega) j hj) j hj]
    cases hb : blocks[i]? with
    | none => exact h.getElem?_none hb
    | some b =>
        rw [h.entries p i b hi hb, hfront, ← hsettled p i b hp hi hb, Block.moveTo_coordinate,
          ite_self]

/-- A sweep over blocks that stand where they belong changes nothing. -/
lemma Swept.eq_self {n : Nat} (h : Swept axis key 0 0 sequence {} blocks swept)
    (hlength : sequence.length = n) (hsettled : SettledBelow axis key n sequence blocks) :
    swept = blocks := by
  refine List.ext_getElem? fun i => ?_
  by_cases hi : i ∈ sequence
  · obtain ⟨p, hp⟩ := List.mem_iff_getElem?.mp hi
    have hlt := (List.getElem?_eq_some_iff.mp hp).1
    exact h.settled hsettled p (by omega) i hp
  · exact h.others i hi

/-- **A sweep may start behind blocks that already stand where they belong.** -/
theorem sweep_eq_sweep_zero (hnodup : sequence.Nodup)
    (hsettled : SettledBelow axis key start sequence blocks) :
    sweep axis key start 0 sequence {} blocks = sweep axis key 0 0 sequence {} blocks := by
  have hlate := sweep_swept axis key start hnodup 0 ({} : Staircase α) blocks
  have hfull := sweep_swept axis key 0 hnodup 0 ({} : Staircase α) blocks
  set late := sweep axis key start 0 sequence {} blocks
  set full := sweep axis key 0 0 sequence {} blocks
  have hagree : ∀ (p : Nat), ∀ i, sequence[p]? = some i → late[i]? = full[i]? := by
    intro p
    induction p using Nat.strong_induction_on with
    | _ p ih =>
      intro i hi
      cases hb : blocks[i]? with
      | none => rw [hlate.getElem?_none hb, hfull.getElem?_none hb]
      | some b =>
          have hfront : climb axis key late {} (sequence.take p)
              = climb axis key full {} (sequence.take p) := by
            refine climb_congr (fun _ _ => rfl) (fun j hj => ?_) _
            rw [getElem?_eq_of_mem_take ih j hj]
          by_cases hp : (p : Int) < start
          · rw [hfull.settled hsettled p hp i hi, hlate.entries p i b hi hb, if_neg (by omega), hb]
          · rw [hlate.entries p i b hi hb, hfull.entries p i b hi hb, hfront, if_pos (by omega),
              if_pos (by omega)]
  refine List.ext_getElem? fun i => ?_
  by_cases hi : i ∈ sequence
  · obtain ⟨p, hp⟩ := List.mem_iff_getElem?.mp hi
    exact hagree p i hp
  · rw [hlate.others i hi, hfull.others i hi]

/-- Where blocks stand along an axis depends on the front of the sequence, its keys, and the blocks
along that axis. -/
lemma SettledBelow.transfer {key' : Nat → Int} {sequence' : List Nat} {blocks' : List (Block α)}
    (h : SettledBelow axis key start sequence blocks)
    (hsame : ∀ (p i : Nat), (p : Int) < start → sequence'[p]? = some i →
      sequence[p]? = some i ∧ key' i = key i ∧
        (blocks'[i]?).map (Block.along axis) = (blocks[i]?).map (Block.along axis)) :
    SettledBelow axis key' start sequence' blocks' := by
  intro p i c hp hi hc
  obtain ⟨hseq, hkey, halong⟩ := hsame p i hp hi
  rw [hc, Option.map_some] at halong
  obtain ⟨b, hb, hbc⟩ := Option.map_eq_some_iff.mp halong.symm
  have htake : sequence'.take p = sequence.take p := by
    refine List.ext_getElem? fun q => ?_
    rw [List.getElem?_take, List.getElem?_take]
    split_ifs with hq
    · have hlen : q < sequence'.length := by
        have := (List.getElem?_eq_some_iff.mp hi).1
        omega
      have hget := List.getElem?_eq_getElem hlen
      rw [hget, (hsame q _ (by omega) hget).1]
    · rfl
  have hfront : climb axis key' blocks' {} (sequence'.take p)
      = climb axis key blocks {} (sequence.take p) := by
    rw [htake]
    have hmem : ∀ j ∈ sequence.take p, key' j = key j ∧
        (blocks'[j]?).map (Block.along axis) = (blocks[j]?).map (Block.along axis) := by
      intro j hj
      rw [← htake] at hj
      obtain ⟨q, hq⟩ := List.mem_iff_getElem?.mp hj
      rw [List.getElem?_take] at hq
      split_ifs at hq with hlt
      exact (hsame q j (by omega) hq).2
    exact climb_congr (fun j hj => (hmem j hj).1) (fun j hj => (hmem j hj).2) _
  rw [hfront, hkey, ← h p i b hp hseq hb]
  exact (congrArg Prod.fst hbc).symm

/-- A sweep does not see the other axis, nor change the blocks along it. -/
lemma Swept.along_ne {slot : Nat} {stair : Staircase α}
    (h : Swept axis key start slot sequence stair blocks swept) {other : Axis} (hne : other ≠ axis)
    (i : Nat) : (swept[i]?).map (Block.along other) = (blocks[i]?).map (Block.along other) := by
  cases hb : blocks[i]? with
  | none => rw [h.getElem?_none hb]
  | some b =>
      obtain ⟨v, hv⟩ := h.moved hb
      rw [hv, Option.map_some, Option.map_some, Block.along, Block.along,
        Block.coordinate_moveTo_ne hne, Block.extent_moveTo]

/-- Where a sweep from the front puts blocks does not depend on where they stood. -/
lemma Swept.along_congr {blocks' swept' : List (Block α)}
    (h : Swept axis key 0 0 sequence {} blocks swept)
    (h' : Swept axis key 0 0 sequence {} blocks' swept')
    (hextent : ∀ i ∈ sequence,
      (blocks[i]?).map (Block.extent axis) = (blocks'[i]?).map (Block.extent axis)) :
    ∀ i ∈ sequence, (swept[i]?).map (Block.along axis) = (swept'[i]?).map (Block.along axis) := by
  have hplace : ∀ p i : Nat, sequence[p]? = some i →
      (swept[i]?).map (Block.along axis) = (swept'[i]?).map (Block.along axis) := by
    intro p
    induction p using Nat.strong_induction_on with
    | _ p ih =>
      intro i hi
      have hfront : climb axis key swept {} (sequence.take p)
          = climb axis key swept' {} (sequence.take p) := by
        refine climb_congr (fun _ _ => rfl) (fun j hj => ?_) _
        obtain ⟨q, hq⟩ := List.mem_iff_getElem?.mp hj
        rw [List.getElem?_take] at hq
        split_ifs at hq with hlt
        exact ih q hlt j hq
      have hsame := hextent i (List.mem_of_getElem? hi)
      cases hb : blocks[i]? with
      | none =>
          rw [hb, Option.map_none, eq_comm, Option.map_eq_none_iff] at hsame
          rw [h.getElem?_none hb, h'.getElem?_none hsame]
      | some b =>
          rw [hb, Option.map_some, eq_comm, Option.map_eq_some_iff] at hsame
          obtain ⟨b', hb', hb'b⟩ := hsame
          rw [h.entries p i b hi hb, h'.entries p i b' hi hb', hfront, if_pos (by omega),
            if_pos (by omega), Option.map_some, Option.map_some, Block.along, Block.along,
            Block.coordinate_moveTo, Block.coordinate_moveTo, Block.extent_moveTo,
            Block.extent_moveTo, hb'b]
  intro i hi
  obtain ⟨p, hp⟩ := List.mem_iff_getElem?.mp hi
  exact hplace p i hp

/-- After a sweep from the front every block of the sequence stands where it belongs. -/
lemma Swept.settledBelow (h : Swept axis key 0 0 sequence {} blocks swept) (start : Int) :
    SettledBelow axis key start sequence swept := by
  intro p i c _ hi hc
  have hlt : i < blocks.length := by
    rw [← h.length]
    exact (List.getElem?_eq_some_iff.mp hc).1
  have hentry := h.entries p i blocks[i] hi (List.getElem?_eq_getElem hlt)
  rw [hc, if_pos (by omega), Option.some.injEq] at hentry
  rw [hentry, Block.coordinate_moveTo]

end Swept

end Layout

end BlockPlan
