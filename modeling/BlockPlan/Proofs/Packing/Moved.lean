import BlockPlan.Proofs.Packing.Recall

/-!
# What packing anew moves

A layout may be packed anew from any two slots on, packed or not before.  The answer is a list of
the blocks that stand elsewhere afterwards, each with the point where it stood, and this is all that
it takes to undo the packing.  None of it needs the recorded slots to be right: it is enough that
both sequences are rearrangements of the blocks, which no call changes.

* `Repacked` — what becomes of a layout, and what is answered.
* **`repack_repacked`** — packing anew makes a layout `Repacked`.
* **`Call.keeps_permuted`** — the sequences are rearrangements of the blocks after every call.
-/

namespace BlockPlan

open Edit (Leads Maintains)

namespace Layout

/-! ## Which layouts there are -/

section Calls

variable {α : Type} {n : Nat}

/-- Exchanging two slots, which may count from the end, rearranges a sequence. -/
lemma exchangeSlots_perm {sequence sequence' : List Nat} {slots slots' : List Int} {a b : Int}
    (h : (exchangeSlots sequence slots a b : Except (Fault α) (List Nat × List Int))
      = .ok (sequence', slots')) : sequence'.Perm sequence := by
  obtain ⟨j, hj, h⟩ := bind_eq_ok.mp h
  obtain ⟨i, hi, h⟩ := bind_eq_ok.mp h
  cases h
  exact exchanged_perm (Slot.lt_of_place hi) (Slot.lt_of_place hj)

/-- Such an exchange in either sequence leaves both rearrangements of the blocks. -/
lemma swap_permuted (sign : Sign) {p q : SequencePair} {a b : Int} (hp : p.Permuted n)
    (hq : (p.swap sign a b : Except (Fault α) SequencePair) = .ok q) : q.Permuted n := by
  obtain ⟨_, hexchange, rfl⟩ := map_eq_ok.mp hq
  refine SequencePair.permuted_iff.mpr fun other => ?_
  rw [SequencePair.sequence_replace]
  rcases eq_or_ne other sign with rfl | hne
  · rw [Function.update_self]
    exact (exchangeSlots_perm hexchange).trans (SequencePair.permuted_iff.mp hp other)
  · rw [Function.update_of_ne hne]
    exact SequencePair.permuted_iff.mp hp other

/-- A layout of `n` blocks whose sequences are rearrangements of them. -/
def PermutedOf (n : Nat) (l : Layout α) : Prop := l.size = n ∧ l.pair.Permuted n

lemma editPair_keeps_permuted {f : SequencePair → Except (Fault α) SequencePair}
    (hf : ∀ p q, p.Permuted n → f p = .ok q → q.Permuted n) :
    Maintains (PermutedOf n) (editPair f) :=
  editPair_maintains fun l q hl hq => ⟨hl.1, hf l.pair q hl.2 hq⟩

lemma editBlock_keeps_permuted {β : Type} (slot : Int) (edit : Edit α (Block α) β) :
    Maintains (PermutedOf n) (editBlock slot edit) := by
  have hblocks : Maintains (fun bs : List (Block α) => bs.length = n) (Block.editAt slot edit) := by
    refine Maintains.read fun bs hbs => Leads.bind (Maintains.ofExcept _) fun i => ?_
    split
    · exact Maintains.throw _
    · exact Maintains.beside edit fun _ _ hlength => List.length_set.trans hlength
  exact hblocks.within (fun _ hl => hl.1) fun _ _ hl hlength => ⟨hlength, hl.2⟩

variable [Scalar α]

lemma PermutedOf.repack {l : Layout α} (h : l.PermutedOf n) (a b : Int) :
    (l.repack a b).2.PermutedOf n := by
  have hlength := congrArg List.length (map_makeup_repack a b l)
  rw [List.length_map, List.length_map] at hlength
  exact ⟨hlength.trans h.1, h.2⟩

/-- A call that loads nothing but rearrangements of `n` blocks. -/
def Call.LoadsPermuted (n : Nat) : Call α → Prop
  | .load _ s => s.positive.Perm (List.range n) ∧ s.negative.Perm (List.range n)
  | _ => True

/-- **No call changes that the sequences are rearrangements of the blocks**, whether it is granted
or refused; only of what is loaded this has to be known. -/
theorem Call.keeps_permuted {call : Call α} (hcall : call.LoadsPermuted n) :
    Maintains (PermutedOf n) call.edit := by
  cases call with
  | setSequences positive negative =>
      refine Maintains.read fun l hl => editPair_keeps_permuted fun _ q _ hq => ?_
      rw [← hl.1]
      exact (SequencePair.coherent_of_ofPermutations hq).permuted
  | swapPositive a b => exact editPair_keeps_permuted fun _ _ hp => swap_permuted .positive hp
  | swapNegative a b => exact editPair_keeps_permuted fun _ _ hp => swap_permuted .negative hp
  | setShape slot key => exact editBlock_keeps_permuted slot _
  | place slot x y => exact editBlock_keeps_permuted slot _
  | pack => exact Leads.modify fun l hl => hl.repack 0 0
  | repack a b => exact Leads.modify fun l hl => hl.repack a b
  | restore origins =>
      refine Leads.modify fun l hl => ⟨?_, hl.2⟩
      have hlength := congrArg List.length (map_makeup_restore origins l)
      rw [List.length_map, List.length_map] at hlength
      exact hlength.trans hl.1
  | load positions s =>
      refine load_leads (fun l hl => ⟨hl.1, hcall.1, hcall.2⟩)
        (fun slot _ => editBlock_keeps_permuted slot _)
        (fun _ l hl => ?_) fun _ l hl => ?_
      · exact ⟨List.length_mapIdx.trans hl.1, hl.2⟩
      · exact hl.repack 0 0

lemma after_permuted {l : Layout α} (hl : l.Permuted) {calls : List (Call α)}
    (hcalls : ∀ call ∈ calls, call.LoadsPermuted l.size) : (l.after calls).Permuted := by
  have hkept : ∀ (calls : List (Call α)) (m : Layout α),
      (∀ call ∈ calls, call.LoadsPermuted l.size) →
      m.PermutedOf l.size → (m.after calls).PermutedOf l.size := by
    intro calls
    induction calls with
    | nil => exact fun m _ hm => hm
    | cons call calls ih =>
        intro m hcalls hm
        exact ih _ (fun c hc => hcalls c (by simp [hc]))
          ((call.keeps_permuted (hcalls call (by simp))).after hm)
  obtain ⟨hsize, hpermuted⟩ := hkept calls l hcalls ⟨rfl, hl⟩
  rwa [Layout.Permuted, hsize]

end Calls

/-! ## Packing anew -/

/-- What packing anew from slots `a` and `b` makes of a layout `l`: blocks in front of `a` in the
positive sequence keep their `x`, those in front of `b` in the negative one keep their `y`, nothing
but positions changes, and the answer lists in increasing order, with the point where it stood,
every block that stands elsewhere afterwards. -/
structure Repacked (l : Layout Rat) (a b : Int) (moved : List (Origin Rat)) (m : Layout Rat) :
    Prop where
  arranged : m = l.arrange m.points
  keepsX : ∀ p i : Nat, (p : Int) < a → l.pair.positive[p]? = some i →
    (m.blocks[i]?).map Block.x = (l.blocks[i]?).map Block.x
  keepsY : ∀ p i : Nat, (p : Int) < b → l.pair.negative[p]? = some i →
    (m.blocks[i]?).map Block.y = (l.blocks[i]?).map Block.y
  increasing : (moved.map Origin.block).Pairwise (· < ·)
  mem_iff : ∀ o, o ∈ moved ↔ ∃ before after, l.blocks[o.block]? = some before ∧
    m.blocks[o.block]? = some after ∧ (o.x, o.y) = (before.x, before.y) ∧
    (after.x ≠ before.x ∨ after.y ≠ before.y)
  restored : restore moved m = l

section Repacked

variable {l : Layout Rat} {a b : Int}

lemma keepsX_repack (h : l.Permuted) {p i : Nat} (hp : (p : Int) < a)
    (hi : l.pair.positive[p]? = some i) :
    ((l.repack a b).2.blocks[i]?).map Block.x = (l.blocks[i]?).map Block.x := by
  have hfront : (l.packX a).blocks[i]? = l.blocks[i]? :=
    (packX_swept h a).front (by simpa using hp) hi
  have halong : ((l.repack a b).2.blocks[i]?).map (Block.along .x)
      = ((l.packX a).blocks[i]?).map (Block.along .x) :=
    -- packing along y leaves x alone
    (packY_swept (packX_permuted h a) b).along_ne (by decide) i
  rw [hfront] at halong
  exact map_coordinate_of_along halong

lemma keepsY_repack (h : l.Permuted) {p i : Nat} (hp : (p : Int) < b)
    (hi : l.pair.negative[p]? = some i) :
    ((l.repack a b).2.blocks[i]?).map Block.y = (l.blocks[i]?).map Block.y := by
  have hfront : (l.repack a b).2.blocks[i]? = (l.packX a).blocks[i]? :=
    (packY_swept (packX_permuted h a) b).front (by simpa using hp) hi
  have halong : ((l.packX a).blocks[i]?).map (Block.along .y)
      = (l.blocks[i]?).map (Block.along .y) :=
    -- packing along x leaves y alone
    (packX_swept h a).along_ne (by decide) i
  rw [← hfront] at halong
  exact map_coordinate_of_along halong

/-- Where some blocks stand is listed in the order of the blocks. -/
lemma origins_increasing {l : Layout Rat} {blocks : List Nat} (h : blocks.Pairwise (· < ·)) :
    (l.origins blocks).Pairwise fun o o' => o.block < o'.block := by
  refine h.filterMap _ fun i j hij o ho o' ho' => ?_
  obtain ⟨_, _, rfl⟩ := Option.map_eq_some_iff.mp ho
  obtain ⟨_, _, rfl⟩ := Option.map_eq_some_iff.mp ho'
  exact hij

/-- **Packing anew answers exactly what it moved**, wherever the blocks stood, and putting back what
it answers takes it back. -/
theorem repack_repacked (h : l.Permuted) (ha : 0 ≤ a) (hb : 0 ≤ b) :
    Repacked l a b (l.repack a b).1 (l.repack a b).2 := by
  have harranged := repack_eq_arrange h a b
  refine ⟨harranged, fun p i => keepsX_repack h, fun p i => keepsY_repack h, ?_, ?_, ?_⟩
  · have htouched : (l.touched a b).Pairwise (· < ·) := List.pairwise_lt_range.filter _
    exact List.pairwise_map.mpr ((origins_increasing htouched).filter _)
  · intro o
    rw [mem_repack_iff h ha hb]
    constructor
    · rintro ⟨hlt, hpoint, hmoved⟩
      have hbefore : l.blocks[o.block]? = some l.blocks[o.block] := List.getElem?_eq_getElem hlt
      obtain ⟨after, hafter⟩ : ∃ after, (l.repack a b).2.blocks[o.block]? = some after := by
        rw [harranged, getElem?_arrange, hbefore]
        exact ⟨_, rfl⟩
      rw [points_eq hbefore] at hpoint hmoved
      rw [points_eq hafter, ne_eq, Prod.mk.injEq, not_and_or] at hmoved
      exact ⟨_, after, hbefore, hafter, hpoint, hmoved⟩
    · rintro ⟨before, after, hbefore, hafter, hpoint, hmoved⟩
      rw [points_eq hbefore, points_eq hafter, ne_eq, Prod.mk.injEq after.x, not_and_or]
      exact ⟨(List.getElem?_eq_some_iff.mp hbefore).1, hpoint, hmoved⟩
  · have hrestored := restore_repack h ha hb (m := l) rfl
    rwa [← harranged, arrange_points] at hrestored

/-- Blocks that lie about, the last slot of the positive sequence counted from its end. -/
def strewn : Layout Rat :=
  (ofBlocks [⟨"flat", .hard 4 1 [.r0] .r0, 5, 3, 4, 1, false⟩,
    ⟨"square", .hard 2 2 [.r0] .r0, 0, 0, 2, 2, false⟩,
    ⟨"tall", .hard 1 3 [.r0] .r0, 7, 2, 1, 3, true⟩]).after [.swapPositive 0 (-1), .place 1 9 9]

lemma strewn_permuted : strewn.Permuted :=
  after_permuted ⟨by decide, by decide⟩ (by simp [Call.LoadsPermuted])

/-- The slots are not the inverse of the sequence, nothing is packed, and there is no slot 7. -/
theorem repack_repacked_strewn :
    (strewn.Permuted ∧ (0 : Int) ≤ 1 ∧ (0 : Int) ≤ 7) ∧ ¬ strewn.Coherent ∧ strewn.pack ≠ strewn ∧
      (strewn.repack 1 7).1 = [⟨0, 5, 3⟩, ⟨1, 9, 9⟩] ∧
      Repacked strewn 1 7 (strewn.repack 1 7).1 (strewn.repack 1 7).2 := by
  have hincoherent : ¬ strewn.Coherent := by
    intro h
    exact absurd h.positiveSlot_eq (by decide +kernel)
  have hunpacked : strewn.pack ≠ strewn := by decide +kernel
  have hmoved : (strewn.repack 1 7).1 = [⟨0, 5, 3⟩, ⟨1, 9, 9⟩] := by decide +kernel
  exact ⟨⟨strewn_permuted, by decide, by decide⟩, hincoherent, hunpacked, hmoved,
    repack_repacked strewn_permuted (by decide) (by decide)⟩

end Repacked

end Layout

end BlockPlan
