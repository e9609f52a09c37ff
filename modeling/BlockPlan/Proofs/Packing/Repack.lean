import BlockPlan.Proofs.Edit
import BlockPlan.Proofs.Packing.SequencePair
import BlockPlan.Proofs.Packing.Sweep

/-!
# Packing anew behind the first change

After an edit that is confined to some blocks only the blocks behind the first of them have to be
packed anew.  `Layout.ConfinedTo` says which edits these are: the members of a set of blocks may be
rearranged among the slots that they hold in either sequence, and may take any shape.

* `firstSlots_natCast` — the slots from which the members of the set start.
* `pack_settledX`, `pack_settledY` — packing puts every block where it belongs.
* `pack_pack` — packing twice is packing once.
* **`repack_firstSlots`** — after a confined edit of a packed layout, packing anew from these slots
  is packing all blocks.
-/

namespace BlockPlan

variable {α : Type}

namespace SequencePair

/-- The least slot of some blocks: none of them has a smaller one, and every bound of their slots
and of the default is a bound of it. -/
lemma leastSlot_natCast {slots : List Int} (dflt : Int) {blocks : List Nat}
    (h : ∀ i ∈ blocks, i < slots.length) :
    ∃ a, (leastSlot slots dflt (blocks.map fun (i : Nat) => (i : Int)) : Except (Fault α) Int)
        = .ok a ∧
      (∀ i ∈ blocks, a ≤ slots.getD i 0) ∧
      ∀ u, u ≤ dflt → (∀ i ∈ blocks, u ≤ slots.getD i 0) → u ≤ a := by
  have hfound : (blocks.map fun (i : Nat) => (i : Int)).mapM
      (Slot.entry slots : Int → Except (Fault α) Int)
        = .ok (blocks.map fun i => slots.getD i 0) := by
    rw [mapM_eq_ok (g := fun i : Int => slots.getD i.toNat 0), List.map_map]
    · rfl
    · intro x hx
      obtain ⟨i, hi, rfl⟩ := List.mem_map.mp hx
      refine Slot.entry_natCast ?_
      rw [Int.toNat_natCast, List.getElem?_eq_getElem (h i hi), List.getD_eq_getElem _ _ (h i hi)]
  cases blocks with
  | nil =>
      refine ⟨dflt, ?_, by simp, fun u hu _ => hu⟩
      rw [leastSlot, hfound]
      rfl
  | cons i rest =>
      have hbounds : ∀ u, u ≤ (rest.map fun i => slots.getD i 0).foldl min (slots.getD i 0) ↔
          ∀ j ∈ i :: rest, u ≤ slots.getD j 0 := by
        intro u
        refine (List.le_min?_iff List.min?_cons').trans ?_
        simp only [List.forall_mem_cons, List.forall_mem_map]
      refine ⟨_, ?_, (hbounds _).mp le_rfl, fun u _ => (hbounds u).mpr⟩
      rw [leastSlot, hfound]
      rfl

/-- In front of the least slot of some blocks there is none of them. -/
lemma Indexed.leastSlot {n : Nat} {sequence : List Nat} {slots : List Int}
    (h : Indexed n sequence slots) {dflt : Int} (hdflt : 0 ≤ dflt) {blocks : List Nat}
    (hlt : ∀ i ∈ blocks, i < n) :
    ∃ a, (leastSlot slots dflt (blocks.map fun (i : Nat) => (i : Int)) : Except (Fault α) Int)
        = .ok a ∧
      0 ≤ a ∧ ∀ k i : Nat, (k : Int) < a → sequence[k]? = some i → i ∉ blocks := by
  have hslots : ∀ i ∈ blocks, i < slots.length := by
    rw [h.length_slots]
    exact hlt
  obtain ⟨a, ha, hmin, hgreatest⟩ := leastSlot_natCast (α := α) dflt hslots
  refine ⟨a, ha, ?_, ?_⟩
  · apply hgreatest 0 hdflt
    intro i hi
    obtain ⟨k, _, hk⟩ := h.exists_slot (hlt i hi)
    rw [h.getD_slot hk]
    omega
  · intro k i hk hi hmem
    have hle := hmin i hmem
    rw [h.getD_slot hi] at hle
    omega

/-- The first slots of some blocks: no slot in front of them holds one. -/
lemma firstSlots_natCast {n : Nat} {p : SequencePair} (h : p.Coherent n) {blocks : List Nat}
    (hlt : ∀ i ∈ blocks, i < n) :
    ∃ a b, (p.firstSlots (blocks.map fun (i : Nat) => (i : Int)) : Except (Fault α) (Int × Int))
        = .ok (a, b) ∧ 0 ≤ a ∧ 0 ≤ b ∧
      (∀ (k i : Nat), (k : Int) < a → p.positive[k]? = some i → i ∉ blocks) ∧
      (∀ (k i : Nat), (k : Int) < b → p.negative[k]? = some i → i ∉ blocks) := by
  obtain ⟨a, ha, hapos, hafront⟩ := h.positive.leastSlot (α := α) (Nat.cast_nonneg p.size) hlt
  obtain ⟨b, hb, hbpos, hbfront⟩ := h.negative.leastSlot (α := α) (Nat.cast_nonneg p.size) hlt
  refine ⟨a, b, ?_, hapos, hbpos, hafront, hbfront⟩
  rw [firstSlots, ha, hb]
  rfl

end SequencePair

namespace Layout

open SequencePair (Indexed)

/-- The pair of a layout is one of its blocks. -/
abbrev Coherent (l : Layout α) : Prop := l.pair.Coherent l.size

/-- Both sequences of a layout are rearrangements of its blocks. -/
abbrev Permuted (l : Layout α) : Prop := l.pair.Permuted l.size

/-- The key of a block in the sweep along x. -/
abbrev keyX (l : Layout α) (i : Nat) : Int := l.pair.slotIn .negative i

/-- The key of a block in the sweep along y. -/
abbrev keyY (l : Layout α) (i : Nat) : Int := ((l.size : Int) - 1) - l.pair.slotIn .positive i

/-! ## Packed layouts -/

section Packed

variable [Scalar α] {l : Layout α}

lemma packX_swept (h : l.Permuted) (start : Int) :
    Swept .x l.keyX start 0 l.pair.positive {} l.blocks (l.packX start).blocks :=
  sweep_swept .x l.keyX start (h.positive.nodup_iff.mpr List.nodup_range) 0 {} l.blocks

lemma packY_swept (h : l.Permuted) (start : Int) :
    Swept .y l.keyY start 0 l.pair.negative {} l.blocks (l.packY start).blocks :=
  sweep_swept .y l.keyY start (h.negative.nodup_iff.mpr List.nodup_range) 0 {} l.blocks

@[simp] lemma packX_pair (start : Int) : (l.packX start).pair = l.pair := rfl

lemma packX_size (h : l.Permuted) (start : Int) : (l.packX start).size = l.size :=
  (packX_swept h start).length

lemma packX_permuted (h : l.Permuted) (start : Int) : (l.packX start).Permuted := by
  rw [Layout.Permuted, packX_size h]
  exact h

lemma keyY_packX (h : l.Permuted) (start : Int) : (l.packX start).keyY = l.keyY := by
  funext i
  rw [keyY, keyY, packX_size h, packX_pair]

lemma pack_blocks (l : Layout α) : l.pack.blocks = ((l.packX 0).packY 0).blocks := rfl

@[simp] lemma pack_pair (l : Layout α) : l.pack.pair = l.pair := rfl

lemma pack_size (h : l.Coherent) : l.pack.size = l.size := by
  rw [size, pack_blocks, (packY_swept (packX_permuted h.permuted 0) 0).length]
  exact packX_size h.permuted 0

lemma pack_coherent (h : l.Coherent) : l.pack.Coherent := by
  rw [Layout.Coherent, pack_size h]
  exact h

lemma keyY_pack (h : l.Coherent) : l.pack.keyY = l.keyY := by
  funext i
  rw [keyY, keyY, pack_size h, pack_pair]

/-- Packing puts every block along x where it belongs. -/
lemma pack_settledX (h : l.Coherent) (start : Int) :
    SettledBelow .x l.keyX start l.pair.positive l.pack.blocks := by
  have hx := (packX_swept h.permuted 0).settledBelow start
  -- packing along y leaves x alone
  refine hx.transfer fun p i _ hi => ⟨hi, rfl, ?_⟩
  exact (packY_swept (packX_permuted h.permuted 0) 0).along_ne (by decide) i

lemma pack_settledY (h : l.Coherent) (start : Int) :
    SettledBelow .y l.keyY start l.pair.negative l.pack.blocks := by
  have hy := (packY_swept (packX_permuted h.permuted 0) 0).settledBelow start
  rwa [keyY_packX h.permuted] at hy

/-- A layout whose blocks stand where they belong is packed. -/
lemma pack_of_settled (h : l.Coherent)
    (hx : SettledBelow .x l.keyX l.size l.pair.positive l.blocks)
    (hy : SettledBelow .y l.keyY l.size l.pair.negative l.blocks) : l.pack = l := by
  have hpackX : l.packX 0 = l := by
    rw [packX]
    exact congrArg (fun bs => ({ l with blocks := bs } : Layout α))
      ((packX_swept h.permuted 0).eq_self h.positive.length hx)
  have hpackY : l.packY 0 = l := by
    rw [packY]
    exact congrArg (fun bs => ({ l with blocks := bs } : Layout α))
      ((packY_swept h.permuted 0).eq_self h.negative.length hy)
  rw [pack, hpackX, hpackY]

lemma pack_pack (h : l.Coherent) : l.pack.pack = l.pack := by
  refine pack_of_settled (pack_coherent h) (pack_settledX h _) ?_
  rw [keyY_pack h]
  exact pack_settledY h _

end Packed

/-! ## Confined edits -/

/-- An edit from `l` to `l'` that is confined to some blocks: all others keep their slots in both
sequences, and stay as they are. -/
structure ConfinedTo (blocks : List Nat) (l l' : Layout α) : Prop where
  size : l'.size = l.size
  positive : ∀ p i : Nat, l.pair.positive[p]? = some i → i ∉ blocks → l'.pair.positive[p]? = some i
  negative : ∀ p i : Nat, l.pair.negative[p]? = some i → i ∉ blocks → l'.pair.negative[p]? = some i
  others : ∀ i : Nat, i ∉ blocks → l'.blocks[i]? = l.blocks[i]?

section Confined

variable {l l' : Layout α} {blocks : List Nat}

lemma ConfinedTo.refl (blocks : List Nat) (l : Layout α) : ConfinedTo blocks l l :=
  ⟨rfl, fun _ _ h _ => h, fun _ _ h _ => h, fun _ _ => rfl⟩

/-- One confined edit after another is confined to the blocks of both. -/
lemma ConfinedTo.trans {l'' : Layout α} {blocks' : List Nat} (h : ConfinedTo blocks l l')
    (h' : ConfinedTo blocks' l' l'') : ConfinedTo (blocks ++ blocks') l l'' := by
  constructor
  · rw [h'.size, h.size]
  · intro p i hp hi
    rw [List.mem_append, not_or] at hi
    exact h'.positive p i (h.positive p i hp hi.1) hi.2
  · intro p i hp hi
    rw [List.mem_append, not_or] at hi
    exact h'.negative p i (h.negative p i hp hi.1) hi.2
  · intro i hi
    rw [List.mem_append, not_or] at hi
    rw [h'.others i hi.2, h.others i hi.1]

lemma ConfinedTo.mono {blocks' : List Nat} (h : ConfinedTo blocks l l')
    (hsub : ∀ i ∈ blocks, i ∈ blocks') : ConfinedTo blocks' l l' where
  size := h.size
  positive p i hp hi := h.positive p i hp (mt (hsub i) hi)
  negative p i hp hi := h.negative p i hp (mt (hsub i) hi)
  others i hi := h.others i (mt (hsub i) hi)

lemma ConfinedTo.of_sequence (hsize : l'.size = l.size)
    (hsequence : ∀ (sign : Sign) (p i : Nat), (l.pair.sequence sign)[p]? = some i → i ∉ blocks →
      (l'.pair.sequence sign)[p]? = some i)
    (hothers : ∀ i : Nat, i ∉ blocks → l'.blocks[i]? = l.blocks[i]?) : ConfinedTo blocks l l' :=
  ⟨hsize, hsequence .positive, hsequence .negative, hothers⟩

lemma ConfinedTo.sequence (h : ConfinedTo blocks l l') (sign : Sign) {p i : Nat}
    (hp : (l.pair.sequence sign)[p]? = some i) (hi : i ∉ blocks) :
    (l'.pair.sequence sign)[p]? = some i := by
  cases sign with
  | positive => exact h.positive p i hp hi
  | negative => exact h.negative p i hp hi

/-- An exchange of two slots moves only the blocks in these slots. -/
lemma getElem?_exchanged_of_notMem {sequence : List Nat} {i j p k : Nat} (hi : i < sequence.length)
    (hj : j < sequence.length) (hp : sequence[p]? = some k)
    (hk : k ∉ [(exchanged sequence i j).getD i 0, (exchanged sequence i j).getD j 0]) :
    (exchanged sequence i j)[p]? = some k := by
  rw [(getD_exchanged hi hj).1, (getD_exchanged hi hj).2, List.mem_cons, List.mem_singleton, not_or,
    List.getD_eq_getElem?_getD, List.getD_eq_getElem?_getD] at hk
  have hpi : p ≠ i := by
    rintro rfl
    exact hk.2 (by rw [hp, Option.getD_some])
  have hpj : p ≠ j := by
    rintro rfl
    exact hk.1 (by rw [hp, Option.getD_some])
  rw [getElem?_exchanged hi hj, Equiv.swap_apply_of_ne_of_ne hpi hpj, hp]

/-- An exchange in either sequence is confined to the blocks in the two slots. -/
lemma confinedTo_swap (sign : Sign) {q : SequencePair} {i j : Nat}
    (hi : i < (l.pair.sequence sign).length) (hj : j < (l.pair.sequence sign).length)
    (hq : q.sequence =
      Function.update l.pair.sequence sign (exchanged (l.pair.sequence sign) i j)) :
    ConfinedTo [(q.sequence sign).getD i 0, (q.sequence sign).getD j 0] l { l with pair := q } := by
  have hself : q.sequence sign = exchanged (l.pair.sequence sign) i j := by
    rw [hq, Function.update_self]
  refine .of_sequence rfl ?_ fun _ _ => rfl
  intro other p k hp hk
  show (q.sequence other)[p]? = some k
  rcases eq_or_ne other sign with rfl | hne
  · rw [hself] at hk ⊢
    exact getElem?_exchanged_of_notMem hi hj hp hk
  · rwa [hq, Function.update_of_ne hne]

lemma confinedTo_set (i : Nat) (c : Block α) :
    ConfinedTo [i] l { l with blocks := l.blocks.set i c } := by
  refine .of_sequence List.length_set (fun _ _ _ hp _ => hp) ?_
  intro k hk
  rw [List.mem_singleton] at hk
  exact List.getElem?_set_ne (Ne.symm hk)

/-- A block outside the set that holds a slot after the edit held it before. -/
lemma slot_before {n : Nat} {sequence sequence' : List Nat} {slots slots' : List Int}
    (h : Indexed n sequence slots) (h' : Indexed n sequence' slots')
    (hkept : ∀ p i : Nat, sequence[p]? = some i → i ∉ blocks → sequence'[p]? = some i) {p i : Nat}
    (hp : sequence'[p]? = some i) (hi : i ∉ blocks) : sequence[p]? = some i := by
  obtain ⟨q, _, hq⟩ := h.exists_slot (h'.mem_iff.mp (List.mem_of_getElem? hp))
  rwa [h'.slot_unique hp (hkept q i hq hi)]

/-- A block outside the set has the slots that it had. -/
lemma ConfinedTo.slotIn (hedit : ConfinedTo blocks l l') (h : l.Coherent) (h' : l'.Coherent)
    (sign : Sign) {i : Nat} (hi : i ∉ blocks) (hlt : i < l.size) :
    l'.pair.slotIn sign i = l.pair.slotIn sign i := by
  obtain ⟨q, _, hq⟩ := (h.indexed sign).exists_slot hlt
  rw [SequencePair.slotIn, SequencePair.slotIn, (h.indexed sign).getD_slot hq,
    (h'.indexed sign).getD_slot (hedit.sequence sign hq hi)]

variable [Scalar α]

/-- After a confined edit of a packed layout, packing anew from slots that no member of the set
stands in front of is packing all blocks. -/
lemma ConfinedTo.repack_eq_pack (hedit : ConfinedTo blocks l l') (h : l.Coherent) (h' : l'.Coherent)
    (hpack : l.pack = l) {a b : Int}
    (hpositive : ∀ k i : Nat, (k : Int) < a → l'.pair.positive[k]? = some i → i ∉ blocks)
    (hnegative : ∀ k i : Nat, (k : Int) < b → l'.pair.negative[k]? = some i → i ∉ blocks) :
    (l'.repack a b).2 = l'.pack := by
  have hindexed : Indexed l.size l'.pair.positive l'.pair.positiveSlot := hedit.size ▸ h'.positive
  have hindexed' : Indexed l.size l'.pair.negative l'.pair.negativeSlot := hedit.size ▸ h'.negative
  have hsettledX := pack_settledX h a
  have hsettledY := pack_settledY h b
  rw [hpack] at hsettledX hsettledY
  -- in front of the first slots nothing has changed that a sweep looks at
  have hx : SettledBelow .x l'.keyX a l'.pair.positive l'.blocks := by
    refine hsettledX.transfer fun p i hp hi => ?_
    have hout := hpositive p i hp hi
    have hsize : i < l.size := hindexed.mem_iff.mp (List.mem_of_getElem? hi)
    refine ⟨slot_before h.positive hindexed hedit.positive hi hout, ?_, by rw [hedit.others i hout]⟩
    exact hedit.slotIn h h' .negative hout hsize
  have hpackX : l'.packX a = l'.packX 0 := by
    rw [packX, packX, sweep_eq_sweep_zero h'.positive.nodup hx]
  have hy : SettledBelow .y (l'.packX 0).keyY b l'.pair.negative (l'.packX 0).blocks := by
    refine hsettledY.transfer fun p i hp hi => ?_
    have hout := hnegative p i hp hi
    have hsize : i < l.size := hindexed'.mem_iff.mp (List.mem_of_getElem? hi)
    refine ⟨slot_before h.negative hindexed' hedit.negative hi hout, ?_, ?_⟩
    · rw [keyY_packX h'.permuted, keyY, keyY, hedit.slotIn h h' .positive hout hsize, hedit.size]
    · -- packing along x leaves y alone
      rw [(packX_swept h'.permuted 0).along_ne (by decide) i, hedit.others i hout]
  have hpackY : (l'.packX 0).packY b = (l'.packX 0).packY 0 := by
    rw [packY, packY]
    exact congrArg (fun bs => ({ l'.packX 0 with blocks := bs } : Layout α))
      (sweep_eq_sweep_zero h'.negative.nodup hy)
  show (l'.packX a).packY b = (l'.packX 0).packY 0
  rw [hpackX, hpackY]

/-- **After an edit of a packed layout that is confined to some blocks, packing anew from their
first slots is packing all blocks.**  This asks nothing of the numbers. -/
theorem repack_firstSlots (h : l.Coherent) (h' : l'.Coherent) (hpack : l.pack = l)
    (hlt : ∀ i ∈ blocks, i < l.size) (hedit : ConfinedTo blocks l l') :
    ∃ a b, (l'.pair.firstSlots (blocks.map fun (i : Nat) => (i : Int)) : Except
      (Fault α) (Int × Int))
        = .ok (a, b) ∧ (l'.repack a b).2 = l'.pack := by
  rw [← hedit.size] at hlt
  obtain ⟨a, b, hfirst, -, -, hpositive, hnegative⟩ :=
    SequencePair.firstSlots_natCast (α := α) h' hlt
  exact ⟨a, b, hfirst, hedit.repack_eq_pack h h' hpack hpositive hnegative⟩

/-- A wide block and a tall one, both at the origin. -/
def wideAndTall : Layout Rat :=
  .ofBlocks [⟨"wide", .hard 2 1 [.r0] .r0, 0, 0, 2, 1, false⟩,
    ⟨"tall", .hard 1 3 [.r0] .r0, 0, 0, 1, 3, false⟩]

/-- The two blocks as they are packed, with the slots of the positive sequence exchanged. -/
def wideAndTallSwapped : Layout Rat :=
  { wideAndTall.pack with pair := .ofSequences 2 [1, 0] [0, 1] }

theorem repack_firstSlots_wideAndTall :
    ∃ a b, (wideAndTallSwapped.pair.firstSlots ([0, 1].map fun (i : Nat) => (i : Int))
        : Except (Fault Rat) (Int × Int)) = .ok (a, b) ∧
      (wideAndTallSwapped.repack a b).2 = wideAndTallSwapped.pack := by
  have h : wideAndTall.Coherent :=
    SequencePair.coherent_ofSequences (List.Perm.refl _) (List.Perm.refl _)
  have hsize : wideAndTall.pack.size = 2 := pack_size h
  have h' : wideAndTallSwapped.Coherent := by
    rw [Layout.Coherent, show wideAndTallSwapped.size = 2 from hsize]
    exact SequencePair.coherent_ofSequences (by decide) (by decide)
  have hconfined : ConfinedTo [1, 0] wideAndTall.pack wideAndTallSwapped := by
    have hexchanged : (SequencePair.ofSequences 2 [1, 0] [0, 1]).sequence =
        Function.update wideAndTall.pack.pair.sequence .positive
          (exchanged (wideAndTall.pack.pair.sequence .positive) 0 1) := by
      funext sign
      cases sign <;> rfl
    exact confinedTo_swap .positive (show 0 < 2 by decide) (show 1 < 2 by decide) hexchanged
  exact repack_firstSlots (pack_coherent h) h' (pack_pack h) (by simp [hsize])
    (hconfined.mono (by simp))

end Confined

end Layout

end BlockPlan
