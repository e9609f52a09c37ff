import BlockPlan.Proofs.Packing.Recall

/-!
# Sequences in step with their inverses

From the layout of some blocks in their order, runs of calls lead on: sequences are installed, slots
exchanged, blocks packed, put back, shaped and placed, snapshots taken and loaded again.  Whatever
the run, whether its calls are granted or refused, both sequences are rearrangements of the blocks
and the slots are their inverses.  All that is asked of the calls is that they exchange slots
counted from the front and load snapshots that were taken.

* `SequencePair.InStep` — sequences and slots are inverse to each other, and any two blocks have one
  bearing.
* `Call.Regular`, `Reached` — the calls of a run, and the layouts that runs lead to.
* `Call.Regular.keeps_coherent` — one call keeps the pair coherent.
* **`Reached.inStep`** — so does a whole run.
-/

namespace BlockPlan

open Edit (Leads Maintains)

/-- How one block may lie to another one. -/
inductive Bearing where
  | left | right | below | above
  deriving DecidableEq, Repr

namespace SequencePair

/-- Whether block `a` lies in a bearing to block `b`. -/
def Lies (p : SequencePair) (a b : Nat) : Bearing → Prop
  | .left => p.LeftOf a b
  | .right => p.LeftOf b a
  | .below => p.Below a b
  | .above => p.Below b a

/-- A rearrangement of the blocks, and a slot for every block: the one that it stands in. -/
structure Inverse (n : Nat) (sequence : List Nat) (slots : List Int) : Prop where
  perm : sequence.Perm (List.range n)
  length : slots.length = n
  slot_iff : ∀ slot block : Nat, slots[block]? = some (slot : Int) ↔ sequence[slot]? = some block

/-- Both sequences are in step with their slots, and any two blocks have exactly one bearing. -/
structure InStep (n : Nat) (p : SequencePair) : Prop where
  positive : Inverse n p.positive p.positiveSlot
  negative : Inverse n p.negative p.negativeSlot
  bearing : ∀ a b, a < n → b < n → a ≠ b → ∃! bearing, p.Lies a b bearing

section InStep

variable {n : Nat} {p : SequencePair}

lemma Indexed.inverse {sequence : List Nat} {slots : List Int} (h : Indexed n sequence slots) :
    Inverse n sequence slots :=
  ⟨h.perm, h.length_slots, fun _ _ => h.slot_iff.symm⟩

/-- Any two blocks of a coherent pair have exactly one bearing. -/
lemma Coherent.existsUnique_bearing (h : p.Coherent n) {a b : Nat} (ha : a < n) (hb : b < n)
    (hne : a ≠ b) : ∃! bearing, p.Lies a b bearing := by
  rcases h.relation ha hb hne with
    ⟨h, h₁, h₂, h₃⟩ | ⟨h, h₁, h₂, h₃⟩ | ⟨h, h₁, h₂, h₃⟩ | ⟨h, h₁, h₂, h₃⟩
  · refine ⟨.left, h, ?_⟩
    rintro (_ | _ | _ | _) hlies
    exacts [rfl, absurd hlies h₁, absurd hlies h₂, absurd hlies h₃]
  · refine ⟨.right, h, ?_⟩
    rintro (_ | _ | _ | _) hlies
    exacts [absurd hlies h₁, rfl, absurd hlies h₂, absurd hlies h₃]
  · refine ⟨.below, h, ?_⟩
    rintro (_ | _ | _ | _) hlies
    exacts [absurd hlies h₁, absurd hlies h₂, rfl, absurd hlies h₃]
  · refine ⟨.above, h, ?_⟩
    rintro (_ | _ | _ | _) hlies
    exacts [absurd hlies h₁, absurd hlies h₂, absurd hlies h₃, rfl]

lemma inStep_of_coherent (h : p.Coherent n) : p.InStep n :=
  ⟨h.positive.inverse, h.negative.inverse, fun _ _ => h.existsUnique_bearing⟩

end InStep

end SequencePair

namespace Layout

variable {α : Type} {n : Nat}

/-! ## What changes the pair of a layout -/

/-- Exchanging slots of either sequence that are counted from the front keeps the pair coherent. -/
lemma swap_keeps_coherent (sign : Sign) {a b : Int} (ha : 0 ≤ a) (halt : a < n) (hb : 0 ≤ b)
    (hblt : b < n) :
    Maintains (fun l : Layout α => l.pair.Coherent n) (editPair (SequencePair.swap sign a b)) := by
  lift a to Nat using ha
  lift b to Nat using hb
  rw [Int.ofNat_lt] at halt hblt
  apply editPair_maintains
  intro l q hl hq
  obtain ⟨q', hrun, hcoherent, -⟩ := hl.swap (α := α) sign halt hblt
  obtain rfl := Except.ok.inj (hrun.symm.trans hq)
  exact hcoherent

/-- Installing sequences keeps the pair one of the blocks; what it refuses, it does not install. -/
lemma setSequences_keeps_coherent (positive negative : List Int) :
    Leads (fun l : Layout α => l.pair.Coherent n ∧ l.size = n) (setSequences positive negative)
      (fun _ l => l.pair.Coherent n) fun l => l.pair.Coherent n := by
  rintro l ⟨hcoherent, rfl⟩
  have hedit : Maintains (fun m : Layout α => m.pair.Coherent l.size)
      (editPair fun _ => SequencePair.ofPermutations l.size positive negative) :=
    editPair_maintains fun _ _ _ hq => SequencePair.coherent_of_ofPermutations hq
  exact hedit l hcoherent

/-- An edit of one block leaves the pair as it is. -/
lemma editBlock_keeps_coherent {β : Type} (slot : Int) (edit : Edit α (Block α) β) :
    Maintains (fun l => l.pair.Coherent n) (editBlock slot edit) :=
  Maintains.beside _ fun _ _ hl => hl

variable [Scalar α]

/-- Loading two sequences of the blocks works out their slots anew, even if a shape is refused later
on. -/
lemma load_keeps_coherent (positions : Bool) {s : Snapshot α}
    (hpositive : s.positive.Perm (List.range n)) (hnegative : s.negative.Perm (List.range n)) :
    Leads (fun l => l.pair.Coherent n ∧ l.size = n) (load positions s)
      (fun _ l => l.pair.Coherent n) fun l => l.pair.Coherent n := by
  refine load_leads ?_ (fun slot _ => editBlock_keeps_coherent slot _) (fun _ _ hl => hl)
    fun _ _ hl => hl
  rintro l ⟨-, rfl⟩
  exact SequencePair.coherent_ofSequences hpositive hnegative

/-! ## Runs of calls -/

/-- The calls of a run on `n` blocks: slots to be exchanged are counted from the front, and a
snapshot to be loaded is one that was taken. -/
def Call.Regular (n : Nat) (taken : List (Snapshot α)) : Call α → Prop
  | .swapPositive a b | .swapNegative a b => (0 ≤ a ∧ a < n) ∧ 0 ≤ b ∧ b < n
  | .load _ s => s ∈ taken
  | _ => True

/-- The layouts that runs lead to from some blocks in their order, with the snapshots taken on the
way.  A call that is refused leaves behind what it has changed before. -/
inductive Reached (blocks : List (Block α)) : List (Snapshot α) → Layout α → Prop
  | start : Reached blocks [] (ofBlocks blocks)
  | call {taken : List (Snapshot α)} {l : Layout α} {c : Call α} (h : Reached blocks taken l)
      (hc : c.Regular blocks.length taken) : Reached blocks taken (c.edit.after l)
  | keep {taken : List (Snapshot α)} {l : Layout α} (h : Reached blocks taken l) :
      Reached blocks (l.snapshot :: taken) l

/-- **One call keeps the pair of a layout coherent.** -/
theorem Call.Regular.keeps_coherent {taken : List (Snapshot α)} {c : Call α}
    (hc : c.Regular n taken)
    (htaken : ∀ s ∈ taken, s.positive.Perm (List.range n) ∧ s.negative.Perm (List.range n)) :
    Leads (fun l => l.pair.Coherent n ∧ l.size = n) c.edit
      (fun _ l => l.pair.Coherent n) fun l => l.pair.Coherent n := by
  have hfirst : ∀ l : Layout α, l.pair.Coherent n ∧ l.size = n → l.pair.Coherent n :=
    fun _ hl => hl.1
  cases c with
  | setSequences positive negative => exact setSequences_keeps_coherent positive negative
  | swapPositive a b =>
      obtain ⟨⟨ha, halt⟩, hb, hblt⟩ := hc
      exact (swap_keeps_coherent .positive ha halt hb hblt).weaken hfirst
  | swapNegative a b =>
      obtain ⟨⟨ha, halt⟩, hb, hblt⟩ := hc
      exact (swap_keeps_coherent .negative ha halt hb hblt).weaken hfirst
  | setShape slot key => exact (editBlock_keeps_coherent slot _).weaken hfirst
  | place slot x y => exact (editBlock_keeps_coherent slot _).weaken hfirst
  | pack => exact Leads.modify hfirst
  | repack a b => exact Leads.modify hfirst
  | restore origins => exact Leads.modify hfirst
  | load positions s => exact load_keeps_coherent positions (htaken s hc).1 (htaken s hc).2

/-- What every run keeps: the blocks with their makeups, a pair of them, and two sequences of them
in every snapshot. -/
structure Sequenced (blocks : List (Block α)) (taken : List (Snapshot α)) (l : Layout α) :
    Prop where
  makeups : MadeUp (blocks.map Block.makeup) l
  coherent : l.pair.Coherent blocks.length
  taken : ∀ s ∈ taken, s.positive.Perm (List.range blocks.length) ∧
    s.negative.Perm (List.range blocks.length)

section Reached

variable {blocks : List (Block α)} {taken : List (Snapshot α)} {l : Layout α}

omit [Scalar α] in
lemma Sequenced.size (h : Sequenced blocks taken l) : l.size = blocks.length := by
  rw [Layout.size, ← List.length_map Block.makeup,
    show l.blocks.map Block.makeup = _ from h.makeups, List.length_map]

lemma Reached.sequenced (h : Reached blocks taken l) : Sequenced blocks taken l := by
  induction h with
  | start => exact ⟨rfl, SequencePair.coherent_ofSequences (.refl _) (.refl _), by simp⟩
  | @call taken l c _ hc ih =>
      have hmakeups := (Call.keeps_makeups c).after ih.makeups
      have hcoherent := (hc.keeps_coherent ih.taken).after ⟨ih.coherent, ih.size⟩
      exact ⟨hmakeups, hcoherent, ih.taken⟩
  | keep _ ih =>
      refine ⟨ih.makeups, ih.coherent, ?_⟩
      rw [List.forall_mem_cons]
      exact ⟨⟨ih.coherent.positive_perm, ih.coherent.negative_perm⟩, ih.taken⟩

/-- **After any run of calls the sequences are rearrangements of the blocks and the slots their
inverses**, so that any two blocks have exactly one bearing. -/
theorem Reached.inStep (h : Reached blocks taken l) : l.pair.InStep blocks.length :=
  SequencePair.inStep_of_coherent h.sequenced.coherent

end Reached

/-- A run that exchanges a slot with itself, is refused sequences, takes a snapshot and loads it
later on. -/
theorem Reached.inStep_turnedUnderSoft :
    ∃ taken l, Reached turnedUnderSoft.blocks taken l ∧ taken.length = 1 ∧
      l.pair.positive = [1, 0] ∧
      l.pair.InStep turnedUnderSoft.blocks.length := by
  have hstart : Reached turnedUnderSoft.blocks [] (ofBlocks turnedUnderSoft.blocks) := .start
  have hswap := hstart.call (c := .swapPositive 1 0) ⟨⟨by decide, by decide⟩, by decide, by decide⟩
  have hkept := hswap.keep
  have hself := hkept.call (c := .swapNegative 1 1) ⟨⟨by decide, by decide⟩, by decide, by decide⟩
  have hrefused := hself.call (c := .setSequences [0, 0] [1, 0]) trivial
  have hback :=
    hrefused.call (c := .swapPositive 0 1) ⟨⟨by decide, by decide⟩, by decide, by decide⟩
  have hloaded := (hback.call (c := .repack 0 1) trivial).call (c := .load true _)
      (List.mem_singleton.mpr rfl)
  exact ⟨_, _, hloaded, rfl, by decide +kernel, hloaded.inStep⟩

end Layout

end BlockPlan
