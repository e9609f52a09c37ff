import Mathlib
import BlockPlan.Packing.SequencePair
import BlockPlan.Proofs.Sequence.Slot

/-!
# Sequences and their inverses

A sequence of the blocks `0, …, n - 1` and the slots of the blocks determine each other.
`SequencePair.Indexed` says this of one sequence, and a pair is `SequencePair.Coherent` when it
holds of both.

* **`Indexed.exchange`** — an exchange of two slots keeps sequence and slots in step, and the same
  exchange takes it back.
* **`Coherent.swap`** — the same for either sequence of a pair.
* `precedes_iff` — a block precedes another one when its slot is smaller.
* **`Coherent.relation`** — any two blocks lie to each other in exactly one of the four ways.
-/

namespace BlockPlan

/-! ## The slots of a sequence -/

lemma slotsOf_aux (sequence : List Nat) : ∀ (k : Nat) (slots : List Int),
    sequence.Nodup → (∀ i ∈ sequence, i < slots.length) →
    let found :=
      (sequence.zipIdx k).foldl (fun slots (block, slot) => slots.set block (slot : Int)) slots
    found.length = slots.length ∧ (∀ i, i ∉ sequence → found[i]? = slots[i]?) ∧
      ∀ p i, sequence[p]? = some i → found[i]? = some ((k + p : Nat) : Int) := by
  induction sequence with
  | nil => intro k slots _ _; simp
  | cons b rest ih =>
      intro k slots hnodup hlt
      rw [List.nodup_cons] at hnodup
      have hb : b < slots.length := hlt b (by simp)
      have hrest : ∀ i ∈ rest, i < (slots.set b (k : Int)).length := by
        intro i hi
        rw [List.length_set]
        exact hlt i (by simp [hi])
      obtain ⟨hlength, hothers, hentries⟩ := ih (k + 1) (slots.set b (k : Int)) hnodup.2 hrest
      simp only [List.zipIdx_cons, List.foldl_cons]
      refine ⟨by rw [hlength, List.length_set], ?_, ?_⟩
      · intro i hi
        rw [List.mem_cons, not_or] at hi
        rw [hothers i hi.2, List.getElem?_set_ne (Ne.symm hi.1)]
      · intro p i hp
        cases p with
        | zero =>
            rw [List.getElem?_cons_zero, Option.some.injEq] at hp
            rw [← hp, hothers b hnodup.1, List.getElem?_set_self hb, Nat.add_zero]
        | succ p =>
            rw [List.getElem?_cons_succ] at hp
            rw [hentries p i hp, Nat.add_right_comm, Nat.add_assoc]

lemma length_slotsOf {n : Nat} {sequence : List Nat} (h : sequence.Perm (List.range n)) :
    (slotsOf n sequence).length = n := by
  have hlt : ∀ i ∈ sequence, i < (List.replicate n (0 : Int)).length := by
    intro i hi
    rw [List.length_replicate]
    exact List.mem_range.mp (h.subset hi)
  have := (slotsOf_aux sequence 0 _ (h.nodup_iff.mpr List.nodup_range) hlt).1
  rwa [List.length_replicate] at this

lemma getElem?_slotsOf {n : Nat} {sequence : List Nat} (h : sequence.Perm (List.range n))
    {p i : Nat} (hp : sequence[p]? = some i) : (slotsOf n sequence)[i]? = some (p : Int) := by
  have hlt : ∀ i ∈ sequence, i < (List.replicate n (0 : Int)).length := by
    intro i hi
    rw [List.length_replicate]
    exact List.mem_range.mp (h.subset hi)
  have := (slotsOf_aux sequence 0 _ (h.nodup_iff.mpr List.nodup_range) hlt).2.2 p i hp
  rwa [Nat.zero_add] at this

/-! ## Exchanging two slots -/

/-- A sequence with the entries of two slots exchanged. -/
def exchanged (sequence : List Nat) (i j : Nat) : List Nat :=
  (sequence.set i (sequence.getD j 0)).set j (sequence.getD i 0)

lemma length_exchanged (sequence : List Nat) (i j : Nat) :
    (exchanged sequence i j).length = sequence.length := by
  simp [exchanged]

lemma getElem?_exchanged {sequence : List Nat} {i j : Nat} (hi : i < sequence.length)
    (hj : j < sequence.length) (p : Nat) :
    (exchanged sequence i j)[p]? = sequence[Equiv.swap i j p]? := by
  simp only [exchanged, List.getElem?_set, List.length_set, List.getD_eq_getElem?_getD]
  by_cases hpj : j = p
  · subst hpj
    simp [hj, hi, Equiv.swap_apply_right]
  · by_cases hpi : i = p
    · subst hpi
      simp [hpj, hi, hj, Equiv.swap_apply_left]
    · simp [hpj, hpi, Equiv.swap_apply_of_ne_of_ne (Ne.symm hpi) (Ne.symm hpj)]

lemma getD_exchanged {sequence : List Nat} {i j : Nat} (hi : i < sequence.length)
    (hj : j < sequence.length) : (exchanged sequence i j).getD i 0 = sequence.getD j 0 ∧
      (exchanged sequence i j).getD j 0 = sequence.getD i 0 := by
  simp only [List.getD_eq_getElem?_getD, getElem?_exchanged hi hj, Equiv.swap_apply_left,
    Equiv.swap_apply_right, and_self]

/-- The slots of two entries hold each other's entry after the exchange. -/
lemma getD_exchanged_of_getElem? {sequence : List Nat} {i j a b : Nat} (ha : sequence[i]? = some a)
    (hb : sequence[j]? = some b) : (exchanged sequence i j).getD i 0 = b ∧
      (exchanged sequence i j).getD j 0 = a := by
  obtain ⟨hi, _⟩ := List.getElem?_eq_some_iff.mp ha
  obtain ⟨hj, _⟩ := List.getElem?_eq_some_iff.mp hb
  rw [(getD_exchanged hi hj).1, (getD_exchanged hi hj).2, List.getD_eq_getElem?_getD,
    List.getD_eq_getElem?_getD, ha, hb]
  exact ⟨rfl, rfl⟩

lemma exchanged_exchanged {sequence : List Nat} {i j : Nat} (hi : i < sequence.length)
    (hj : j < sequence.length) : exchanged (exchanged sequence i j) i j = sequence := by
  refine List.ext_getElem? fun p => ?_
  rw [getElem?_exchanged (by rwa [length_exchanged]) (by rwa [length_exchanged]),
    getElem?_exchanged hi hj, Equiv.swap_apply_self]

lemma exchanged_perm {sequence : List Nat} {i j : Nat} (hi : i < sequence.length)
    (hj : j < sequence.length) : (exchanged sequence i j).Perm sequence := by
  rw [exchanged, List.getD_eq_getElem _ _ hi, List.getD_eq_getElem _ _ hj]
  exact List.set_set_perm hi hj

lemma exchangeSlots_natCast {α : Type} {sequence : List Nat} (inverse : List Int) {i j : Nat}
    (hi : i < sequence.length) (hj : j < sequence.length) :
    (exchangeSlots sequence inverse (i : Int) (j : Int) : Except (Fault α) (List Nat × List Int))
      = .ok (exchanged sequence i j,
          (inverse.set ((exchanged sequence i j).getD i 0) i).set
            ((exchanged sequence i j).getD j 0) j) := by
  simp only [exchangeSlots, Slot.place_natCast hi, Slot.place_natCast hj, exchanged]
  rfl

namespace SequencePair

/-- A sequence of `n` blocks with the slots of the blocks. -/
structure Indexed (n : Nat) (sequence : List Nat) (slots : List Int) : Prop where
  perm : sequence.Perm (List.range n)
  slots_eq : slots = slotsOf n sequence

section Indexed

variable {n : Nat} {sequence : List Nat} {slots : List Int}

lemma Indexed.nodup (h : Indexed n sequence slots) : sequence.Nodup :=
  h.perm.nodup_iff.mpr List.nodup_range

lemma Indexed.length (h : Indexed n sequence slots) : sequence.length = n := by
  rw [h.perm.length_eq, List.length_range]

lemma Indexed.mem_iff (h : Indexed n sequence slots) {i : Nat} : i ∈ sequence ↔ i < n := by
  rw [h.perm.mem_iff, List.mem_range]

lemma Indexed.slot (h : Indexed n sequence slots) {p i : Nat} (hp : sequence[p]? = some i) :
    slots[i]? = some (p : Int) := by
  rw [h.slots_eq]
  exact getElem?_slotsOf h.perm hp

lemma Indexed.getD_slot (h : Indexed n sequence slots) {p i : Nat} (hp : sequence[p]? = some i) :
    slots.getD i 0 = (p : Int) := by
  rw [List.getD_eq_getElem?_getD, h.slot hp, Option.getD_some]

lemma Indexed.exists_slot (h : Indexed n sequence slots) {i : Nat} (hi : i < n) :
    ∃ p, p < n ∧ sequence[p]? = some i := by
  obtain ⟨p, hp⟩ := List.mem_iff_getElem?.mp (h.mem_iff.mpr hi)
  have hlt : p < sequence.length := (List.getElem?_eq_some_iff.mp hp).1
  exact ⟨p, h.length ▸ hlt, hp⟩

lemma Indexed.getD_lt (h : Indexed n sequence slots) {p : Nat} (hp : p < n) :
    sequence.getD p 0 < n := by
  have hlt : p < sequence.length := h.length.symm ▸ hp
  rw [List.getD_eq_getElem _ _ hlt]
  exact h.mem_iff.mp (List.getElem_mem hlt)

lemma Indexed.getD_pair_lt (h : Indexed n sequence slots) {i j : Nat} (hi : i < n) (hj : j < n) :
    ∀ k ∈ [sequence.getD i 0, sequence.getD j 0], k < n := by
  simp only [List.mem_cons, List.not_mem_nil, or_false]
  rintro k (rfl | rfl)
  · exact h.getD_lt hi
  · exact h.getD_lt hj

lemma Indexed.slot_unique (h : Indexed n sequence slots) {p q i : Nat} (hp : sequence[p]? = some i)
    (hq : sequence[q]? = some i) : p = q := by
  have := (h.slot hp).symm.trans (h.slot hq)
  simpa using this

lemma Indexed.length_slots (h : Indexed n sequence slots) : slots.length = n := by
  rw [h.slots_eq, length_slotsOf h.perm]

/-- Sequence and slots are inverse to each other. -/
lemma Indexed.slot_iff (h : Indexed n sequence slots) {p i : Nat} :
    sequence[p]? = some i ↔ slots[i]? = some (p : Int) := by
  refine ⟨h.slot, fun hi => ?_⟩
  have hlt : i < n := h.length_slots ▸ (List.getElem?_eq_some_iff.mp hi).1
  obtain ⟨q, -, hq⟩ := h.exists_slot hlt
  have hsame := hi.symm.trans (h.slot hq)
  rw [Option.some.injEq, Nat.cast_inj] at hsame
  rw [hsame, hq]

/-- A list of slots that is right about every block is the list of the slots. -/
lemma Indexed.of_entries (hperm : sequence.Perm (List.range n)) (hlength : slots.length = n)
    (hslots : ∀ p i : Nat, sequence[p]? = some i → slots[i]? = some (p : Int)) :
    Indexed n sequence slots := by
  refine ⟨hperm, List.ext_getElem? fun i => ?_⟩
  by_cases hi : i < n
  · obtain ⟨p, hp⟩ := List.mem_iff_getElem?.mp (hperm.mem_iff.mpr (List.mem_range.mpr hi))
    rw [hslots p i hp, getElem?_slotsOf hperm hp]
  · rw [List.getElem?_eq_none (by omega), List.getElem?_eq_none (by
      rw [length_slotsOf hperm]
      omega)]

/-- A block that is looked up in a slot sits in that slot only. -/
lemma slot_of_getD {sequence : List Nat} (hnodup : sequence.Nodup) {k p b : Nat}
    (hk : k < sequence.length) (hb : sequence.getD k 0 = b) (hp : sequence[p]? = some b) :
    k = p := by
  rw [List.getD_eq_getElem _ _ hk] at hb
  exact (List.Nodup.getElem_inj_iff hnodup).mp
    (hb.trans (List.getElem?_eq_some_iff.mp hp).2.symm)

/-- After an exchange the slots are right again about every block. -/
lemma Indexed.exchange_slots (h : Indexed n sequence slots) {i j : Nat} (hi : i < n) (hj : j < n) :
    Indexed n (exchanged sequence i j)
      ((slots.set ((exchanged sequence i j).getD i 0) (i : Int)).set
        ((exchanged sequence i j).getD j 0) (j : Int)) := by
  have hi' : i < sequence.length := h.length ▸ hi
  have hj' : j < sequence.length := h.length ▸ hj
  have hperm := exchanged_perm hi' hj'
  have hnodup : (exchanged sequence i j).Nodup := hperm.nodup_iff.mpr h.nodup
  have hlength : slots.length = n := by rw [h.slots_eq, length_slotsOf h.perm]
  refine Indexed.of_entries (hperm.trans h.perm) ?_ ?_
  · rw [List.length_set, List.length_set, hlength]
  · intro p b hp
    have hb : b < slots.length := by
      rw [hlength]
      exact h.mem_iff.mp (hperm.subset (List.mem_of_getElem? hp))
    have hself : (exchanged sequence i j).getD p 0 = b := by
      rw [List.getD_eq_getElem?_getD, hp, Option.getD_some]
    rw [List.getElem?_set, List.getElem?_set, List.length_set]
    by_cases hpj : j = p
    · subst hpj
      rw [if_pos hself, hself, if_pos hb]
    · have hoff : ¬ (exchanged sequence i j).getD j 0 = b := fun hk =>
        hpj (slot_of_getD hnodup (by rwa [length_exchanged]) hk hp)
      rw [if_neg hoff]
      by_cases hpi : i = p
      · subst hpi
        rw [if_pos hself, hself, if_pos hb]
      · have hoff' : ¬ (exchanged sequence i j).getD i 0 = b := fun hk =>
          hpi (slot_of_getD hnodup (by rwa [length_exchanged]) hk hp)
        rw [if_neg hoff']
        rw [getElem?_exchanged hi' hj',
          Equiv.swap_apply_of_ne_of_ne (Ne.symm hpi) (Ne.symm hpj)] at hp
        exact h.slot hp

/-- **An exchange of two slots keeps a sequence and its slots in step, and the same exchange takes
it back.** -/
theorem Indexed.exchange {α : Type} (h : Indexed n sequence slots) {i j : Nat} (hi : i < n)
    (hj : j < n) :
    ∃ slots', Indexed n (exchanged sequence i j) slots' ∧
      (exchangeSlots sequence slots (i : Int) (j : Int) : Except (Fault α) (List Nat × List Int))
        = .ok (exchanged sequence i j, slots') ∧
      (exchangeSlots (exchanged sequence i j) slots' (i : Int) (j : Int)
          : Except (Fault α) (List Nat × List Int))
        = .ok (sequence, slots) := by
  have hi' : i < sequence.length := h.length ▸ hi
  have hj' : j < sequence.length := h.length ▸ hj
  have hforth := h.exchange_slots hi hj
  have hback := hforth.exchange_slots hi hj
  refine ⟨_, hforth, exchangeSlots_natCast slots hi' hj', ?_⟩
  -- the sequence comes back, and with it its slots
  rw [exchangeSlots_natCast _ (by rwa [length_exchanged]) (by rwa [length_exchanged]),
    hback.slots_eq, exchanged_exchanged hi' hj', ← h.slots_eq]

end Indexed

section Coherent

variable {n : Nat} {p : SequencePair}

/-- What is put in the place of a sequence is found there, and the other one is as it was. -/
@[simp] lemma sequence_replace (p : SequencePair) (sign : Sign) (sequence : List Nat)
    (inverse : List Int) :
    (p.replace sign sequence inverse).sequence = Function.update p.sequence sign sequence := by
  funext other
  cases sign <;> cases other <;> rfl

@[simp] lemma slots_replace (p : SequencePair) (sign : Sign) (sequence : List Nat)
    (inverse : List Int) :
    (p.replace sign sequence inverse).slots = Function.update p.slots sign inverse := by
  funext other
  cases sign <;> cases other <;> rfl

/-- A pair is given back when its own sequence is put in the place of another one. -/
lemma replace_replace (p : SequencePair) (sign : Sign) (sequence : List Nat) (inverse : List Int) :
    (p.replace sign sequence inverse).replace sign (p.sequence sign) (p.slots sign) = p := by
  cases sign <;> rfl

lemma coherent_iff : p.Coherent n ↔ ∀ sign, Indexed n (p.sequence sign) (p.slots sign) := by
  constructor
  · rintro ⟨hpositive, hnegative, hpositiveSlot, hnegativeSlot⟩ sign
    cases sign with
    | positive => exact ⟨hpositive, hpositiveSlot⟩
    | negative => exact ⟨hnegative, hnegativeSlot⟩
  · intro h
    exact ⟨(h .positive).perm, (h .negative).perm, (h .positive).slots_eq, (h .negative).slots_eq⟩

/-- Both sequences are rearrangements of the blocks, whatever is recorded of the slots. -/
structure Permuted (n : Nat) (p : SequencePair) : Prop where
  positive : p.positive.Perm (List.range n)
  negative : p.negative.Perm (List.range n)

lemma permuted_iff : p.Permuted n ↔ ∀ sign, (p.sequence sign).Perm (List.range n) := by
  constructor
  · rintro ⟨hpositive, hnegative⟩ sign
    cases sign with
    | positive => exact hpositive
    | negative => exact hnegative
  · intro h
    exact ⟨h .positive, h .negative⟩

lemma Coherent.permuted (h : p.Coherent n) : p.Permuted n := ⟨h.positive_perm, h.negative_perm⟩

lemma Coherent.indexed (h : p.Coherent n) (sign : Sign) :
    Indexed n (p.sequence sign) (p.slots sign) :=
  coherent_iff.mp h sign

lemma Coherent.positive (h : p.Coherent n) : Indexed n p.positive p.positiveSlot :=
  h.indexed .positive

lemma Coherent.negative (h : p.Coherent n) : Indexed n p.negative p.negativeSlot :=
  h.indexed .negative

lemma coherent_ofSequences {positive negative : List Nat} (hp : positive.Perm (List.range n))
    (hn : negative.Perm (List.range n)) : (ofSequences n positive negative).Coherent n :=
  ⟨hp, hn, rfl, rfl⟩

lemma Coherent.ofSequences_eq (h : p.Coherent n) : ofSequences n p.positive p.negative = p := by
  rw [ofSequences, ← h.positiveSlot_eq, ← h.negativeSlot_eq]

/-- **Exchanging two slots of either sequence keeps a pair coherent, leaves the other sequence as it
is, and is undone by itself.** -/
theorem Coherent.swap {α : Type} (h : p.Coherent n) (sign : Sign) {i j : Nat} (hi : i < n)
    (hj : j < n) :
    ∃ q : SequencePair, (p.swap sign (i : Int) (j : Int) : Except (Fault α) SequencePair) = .ok q ∧
      q.Coherent n ∧
      q.sequence = Function.update p.sequence sign (exchanged (p.sequence sign) i j) ∧
      (q.swap sign (i : Int) (j : Int) : Except (Fault α) SequencePair) = .ok p := by
  obtain ⟨slots, hindexed, hforth, hback⟩ := (h.indexed sign).exchange (α := α) hi hj
  refine ⟨p.replace sign (exchanged (p.sequence sign) i j) slots, ?_, ?_,
    sequence_replace _ _ _ _, ?_⟩
  · rw [SequencePair.swap, hforth]
    rfl
  · refine coherent_iff.mpr fun other => ?_
    rw [sequence_replace, slots_replace]
    rcases eq_or_ne other sign with rfl | hne
    · rwa [Function.update_self, Function.update_self]
    · rw [Function.update_of_ne hne, Function.update_of_ne hne]
      exact h.indexed other
  · rw [SequencePair.swap, sequence_replace, slots_replace, Function.update_self,
      Function.update_self, hback]
    exact congrArg Except.ok (replace_replace p sign _ _)

end Coherent

/-! ## Relative positions -/

lemma precedes_iff {sequence : List Nat} {x y : Nat} :
    Precedes sequence x y ↔
      ∃ p q : Nat, p < q ∧ sequence[p]? = some x ∧ sequence[q]? = some y := by
  rw [Precedes, List.cons_sublist_iff]
  constructor
  · rintro ⟨front, back, rfl, hx, hy⟩
    obtain ⟨p, hp⟩ := List.mem_iff_getElem?.mp hx
    obtain ⟨q, hq⟩ := List.mem_iff_getElem?.mp (List.singleton_sublist.mp hy)
    have hlt : p < front.length := (List.getElem?_eq_some_iff.mp hp).1
    refine ⟨p, front.length + q, by omega, ?_, ?_⟩
    · rw [List.getElem?_append_left hlt, hp]
    · rw [List.getElem?_append_right (by omega), Nat.add_sub_cancel_left, hq]
  · rintro ⟨p, q, hpq, hx, hy⟩
    refine ⟨sequence.take (p + 1), sequence.drop (p + 1), (List.take_append_drop _ _).symm, ?_, ?_⟩
    · exact List.mem_of_getElem? (i := p) (by rw [List.getElem?_take_of_lt (by omega), hx])
    · refine List.singleton_sublist.mpr (List.mem_of_getElem? (i := q - (p + 1)) ?_)
      rw [List.getElem?_drop, ← hy]
      congr 1
      omega

lemma Indexed.precedes_iff {n : Nat} {sequence : List Nat} {slots : List Int}
    (h : Indexed n sequence slots) {p q x y : Nat} (hx : sequence[p]? = some x)
    (hy : sequence[q]? = some y) : Precedes sequence x y ↔ p < q := by
  rw [SequencePair.precedes_iff]
  constructor
  · rintro ⟨p', q', hlt, hx', hy'⟩
    rwa [h.slot_unique hx hx', h.slot_unique hy hy']
  · intro hlt
    exact ⟨p, q, hlt, hx, hy⟩

/-- No two blocks precede each other, and no block precedes itself. -/
lemma Indexed.precedes_asymm {n : Nat} {sequence : List Nat} {slots : List Int}
    (h : Indexed n sequence slots) {x y : Nat} (hxy : Precedes sequence x y) :
    ¬ Precedes sequence y x := by
  obtain ⟨p, q, hlt, hx, hy⟩ := SequencePair.precedes_iff.mp hxy
  rw [h.precedes_iff hy hx]
  exact hlt.asymm

/-- Of two different blocks one precedes the other. -/
lemma Indexed.precedes_or {n : Nat} {sequence : List Nat} {slots : List Int}
    (h : Indexed n sequence slots) {x y : Nat} (hx : x < n) (hy : y < n) (hne : x ≠ y) :
    (Precedes sequence x y ∧ ¬ Precedes sequence y x) ∨
      (Precedes sequence y x ∧ ¬ Precedes sequence x y) := by
  obtain ⟨p, _, hp⟩ := h.exists_slot hx
  obtain ⟨q, _, hq⟩ := h.exists_slot hy
  have hpq : p ≠ q := by
    rintro rfl
    exact hne (Option.some.inj (hp.symm.trans hq))
  rw [h.precedes_iff hp hq, h.precedes_iff hq hp]
  omega

/-- **Any two blocks lie to each other in exactly one of the four ways.** -/
theorem Coherent.relation {n : Nat} {p : SequencePair} (h : p.Coherent n) {a b : Nat} (ha : a < n)
    (hb : b < n) (hne : a ≠ b) :
    (p.LeftOf a b ∧ ¬ p.LeftOf b a ∧ ¬ p.Below a b ∧ ¬ p.Below b a) ∨
      (p.LeftOf b a ∧ ¬ p.LeftOf a b ∧ ¬ p.Below a b ∧ ¬ p.Below b a) ∨
      (p.Below a b ∧ ¬ p.LeftOf a b ∧ ¬ p.LeftOf b a ∧ ¬ p.Below b a) ∨
      (p.Below b a ∧ ¬ p.LeftOf a b ∧ ¬ p.LeftOf b a ∧ ¬ p.Below a b) := by
  simp only [LeftOf, Below]
  rcases h.positive.precedes_or ha hb hne with hpos | hpos <;>
    rcases h.negative.precedes_or ha hb hne with hneg | hneg <;>
    simp [hpos.1, hpos.2, hneg.1, hneg.2]

end SequencePair

end BlockPlan
