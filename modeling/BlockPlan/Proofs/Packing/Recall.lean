import BlockPlan.Proofs.Packing.Sound

/-!
# What snapshots recall

Whatever is asked of a layout, and whether it is granted or refused, its blocks keep their makeups:
names, shapes to choose from, and wishes for an edge.  So its snapshots stay good: the sequences are
kept, the inverses follow from them, the keys give the sides back, and the positions are kept or,
being those of a packing, follow from the rest.

* `Block.HasKeySides` — the sides of a block are those that its shape key stands for.
* `Call`, `after` — what may be asked of a layout, and what a list of calls leaves behind.
* `Call.keeps_makeups`, `after_makeups` — no call changes a makeup.
* **`load_snapshot_after`** — both ways to load a snapshot of a packed layout give it back, whatever
  was asked of it since.
-/

namespace BlockPlan

open Edit (Leads Maintains)

variable {α : Type}

namespace Block

/-- The sides of the block are those that its shape key stands for; a candidate may be counted from
the end. -/
def HasKeySides (b : Block α) : Prop :=
  match b.form with
  | .hard w h allowed o => o ∈ allowed ∧ (b.width, b.height) = orientedSides w h o
  | .soft candidates index => Slot.get? candidates index = some (b.width, b.height)

/-- A block with the sides of its key is recalled by it. -/
lemma HasKeySides.recalled {b : Block α} (h : b.HasKeySides) : b.Recalled := by
  intro c hmakeup
  obtain ⟨bname, bform, bx, by', bwidth, bheight, bedge⟩ := b
  obtain ⟨cname, cform, cx, cy, cwidth, cheight, cedge⟩ := c
  simp only [makeup, Prod.mk.injEq] at hmakeup
  obtain ⟨rfl, rfl, hmenu⟩ := hmakeup
  cases bform with
  | hard w hh allowed o =>
      obtain ⟨hallowed, hsides⟩ := h
      obtain ⟨former, rfl⟩ : ∃ former, cform = .hard w hh allowed former := by
        cases cform <;> cases hmenu
        exact ⟨_, rfl⟩
      simp only [Prod.ext_iff] at hsides
      simp only [setShape, shapeKey, EStateM.run_bind, EStateM.run_get,
        List.contains_iff_mem.mpr hallowed, if_true, ← hsides.1, ← hsides.2]
      rfl
  | soft candidates index =>
      obtain ⟨former, rfl⟩ : ∃ former, cform = .soft candidates former := by
        cases cform <;> cases hmenu
        exact ⟨_, rfl⟩
      have hentry : (Slot.entry candidates index : Except (Fault α) (α × α))
          = .ok (bwidth, bheight) := by
        rw [Slot.entry, show Slot.get? candidates index = _ from h]
      simp only [setShape, shapeKey, EStateM.run_bind, EStateM.run_get, EStateM.run_set, hentry,
        Edit.run_ofExcept_ok]
      rfl

end Block

namespace Layout

/-! ## Calls -/

/-- What may be asked of a layout. -/
inductive Call (α : Type) where
  | setSequences (positive negative : List Int)
  | swapPositive (a b : Int)
  | swapNegative (a b : Int)
  | setShape (slot : Int) (key : ShapeKey)
  | place (slot : Int) (x y : α)
  | pack
  | repack (positiveFrom negativeFrom : Int)
  | restore (origins : List (Origin α))
  | load (positions : Bool) (s : Snapshot α)

variable [Scalar α]

/-- The edit that a call asks for. -/
def Call.edit : Call α → Edit α (Layout α) Unit
  | setSequences positive negative => Layout.setSequences positive negative
  | swapPositive a b => editPair (SequencePair.swapPositive a b)
  | swapNegative a b => editPair (SequencePair.swapNegative a b)
  | setShape slot key => Layout.setShape slot key
  | place slot x y => Layout.place slot x y
  | pack => modify Layout.pack
  | repack positiveFrom negativeFrom => modify fun l => (l.repack positiveFrom negativeFrom).2
  | restore origins => modify (Layout.restore origins)
  | load positions s => Layout.load positions s

/-- The layout after some calls, with whatever those that were refused had changed before. -/
def after (l : Layout α) (calls : List (Call α)) : Layout α :=
  calls.foldl (fun l call => call.edit.after l) l

/-! ## Makeups -/

section Makeups

variable {known : Makeups α}

/-- The blocks of a layout have the makeups that are known. -/
def MadeUp (known : Makeups α) (l : Layout α) : Prop := l.blocks.map Block.makeup = known

omit [Scalar α] in
lemma editPair_keeps_makeups (f : SequencePair → Except (Fault α) SequencePair) :
    Maintains (MadeUp known) (editPair f) :=
  editPair_maintains fun _ _ hl _ => hl

omit [Scalar α] in
/-- An edit of one block keeps all makeups if it keeps that of the block. -/
lemma editBlock_keeps_makeups {β : Type} (slot : Int) {edit : Edit α (Block α) β}
    (hedit : ∀ m, Maintains (fun b => b.makeup = m) edit) :
    Maintains (MadeUp known) (editBlock slot edit) := by
  have hblocks : Maintains (fun bs : List (Block α) => bs.map Block.makeup = known)
      (Block.editAt slot edit) := by
    refine Maintains.read fun bs hbs => Leads.bind (Maintains.ofExcept _) fun i => ?_
    split
    · exact Maintains.throw _
    · rename_i b hb
      have hknown : known[i]? = some b.makeup := by
        rw [← hbs, List.getElem?_map, hb, Option.map_some]
      exact (hedit b.makeup).within (fun _ _ => rfl) fun c bs' hbs' hc =>
        (map_makeup_set (hbs' ▸ hknown) hc).trans hbs'
  exact hblocks.within (fun _ hl => hl) fun _ _ _ hbs => hbs

omit [Scalar α] in
lemma setShape_keeps_makeups (slot : Int) (key : ShapeKey) :
    Maintains (MadeUp known) (setShape (α := α) slot key) :=
  editBlock_keeps_makeups slot fun m => Block.setShape_keeps_rest (P := fun m' _ => m' = m) key

/-- A sweep moves blocks and changes nothing else of them. -/
lemma map_makeup_sweep (axis : Axis) (key : Nat → Int) (start : Int) (slot : Nat)
    (sequence : List Nat) (stair : Staircase α) (blocks : List (Block α)) :
    (sweep axis key start slot sequence stair blocks).map Block.makeup
        = blocks.map Block.makeup := by
  induction sequence generalizing slot stair blocks with
  | nil => rfl
  | cons i rest ih =>
      rw [sweep]
      split
      · exact ih _ _ _
      · rename_i b hb
        refine (ih _ _ _).trans
          (map_makeup_set (b := b) (by rw [List.getElem?_map, hb, Option.map_some]) ?_)
        split_ifs
        · obtain ⟨x, y, hplace⟩ := place_of_moveTo axis (stair.query (key i)) b
          exact hplace ▸ rfl
        · rfl

lemma map_makeup_repack (a b : Int) (l : Layout α) :
    (l.repack a b).2.blocks.map Block.makeup = l.blocks.map Block.makeup :=
  (map_makeup_sweep _ _ _ _ _ _ _).trans (map_makeup_sweep _ _ _ _ _ _ _)

lemma map_makeup_restore (origins : List (Origin α)) (l : Layout α) :
    (l.restore origins).blocks.map Block.makeup = l.blocks.map Block.makeup := by
  conv_lhs => rw [← l.arrange_points, restore_arrange]
  exact map_blocks_arrange (fun _ _ _ => rfl) _ l

omit [Scalar α] in
/-- Putting blocks where a snapshot has them changes no makeup. -/
lemma map_makeup_mapIdx (s : Snapshot α) (blocks : List (Block α)) :
    (blocks.mapIdx fun i b =>
      match s.points[i]? with
      | some (x, y) => b.place x y
      | none => b).map Block.makeup = blocks.map Block.makeup := by
  refine List.ext_getElem? fun i => ?_
  rw [List.getElem?_map, List.getElem?_mapIdx, List.getElem?_map, Option.map_map]
  refine congrArg (fun f => Option.map f blocks[i]?) (funext fun b => ?_)
  rw [Function.comp_apply]
  split <;> rfl

lemma load_keeps_makeups (positions : Bool) (s : Snapshot α) :
    Maintains (MadeUp known) (Layout.load positions s) := by
  refine load_leads (fun _ hl => hl) setShape_keeps_makeups (fun _ l hl => ?_) fun _ l hl => ?_
  · exact (map_makeup_mapIdx s l.blocks).trans hl
  · exact (map_makeup_repack 0 0 l).trans hl

/-- **No call changes the makeup of a block**, whether it is granted or refused. -/
theorem Call.keeps_makeups (call : Call α) : Maintains (MadeUp known) call.edit := by
  cases call with
  | setSequences positive negative =>
      exact Maintains.read fun _ _ => editPair_keeps_makeups _
  | swapPositive a b => exact editPair_keeps_makeups _
  | swapNegative a b => exact editPair_keeps_makeups _
  | setShape slot key => exact setShape_keeps_makeups slot key
  | place slot x y => exact editBlock_keeps_makeups slot fun _ => Leads.modify fun _ hb => hb
  | pack => exact Leads.modify fun l hl => (map_makeup_repack 0 0 l).trans hl
  | repack a b => exact Leads.modify fun l hl => (map_makeup_repack a b l).trans hl
  | restore origins => exact Leads.modify fun l hl => (map_makeup_restore origins l).trans hl
  | load positions s => exact load_keeps_makeups positions s

lemma after_makeups (l : Layout α) (calls : List (Call α)) :
    (l.after calls).blocks.map Block.makeup = l.blocks.map Block.makeup := by
  induction calls generalizing l with
  | nil => rfl
  | cons call calls ih => exact (ih _).trans (call.keeps_makeups.after rfl)

end Makeups

/-! ## Snapshots -/

/-- **The snapshot of a packed layout gives it back in both ways**, with its positions or by packing
anew, whatever was asked of the layout since. -/
theorem load_snapshot_after {l : Layout α} (hpair : l.Coherent)
    (hsides : ∀ b ∈ l.blocks, b.HasKeySides) (hpacked : l.pack = l) (calls : List (Call α)) :
    (load true l.snapshot).run (l.after calls) = .ok () l ∧
      (load false l.snapshot).run (l.after calls) = .ok () l := by
  have hrecalled : ∀ b ∈ l.blocks, b.Recalled := fun b hb => (hsides b hb).recalled
  have hmakeups := l.after_makeups calls
  refine ⟨run_load_points hpair hrecalled hmakeups, ?_⟩
  rw [run_load_packing hpair hrecalled hmakeups, hpacked]

/-- A block on its side, and on top of it one whose candidate is counted from the end. -/
def turnedUnderSoft : Layout Rat :=
  ⟨[⟨"turned", .hard 2 1 [.r0, .r90] .r90, 0, 0, 1, 2, false⟩,
    ⟨"soft", .soft [(4, 1), (2, 2)] (-1), 0, 2, 2, 2, true⟩], .ofSequences 2 [1, 0] [0, 1]⟩

/-- Among the calls are two that are refused, of which one leaves a key behind that stands for no
candidate. -/
theorem load_snapshot_after_turnedUnderSoft :
    let calls : List (Call Rat) :=
      [.swapPositive 0 (-1), .setShape 0 (.orientation .r0),
        .setShape 1 (.candidate 7), .place 1 9 9,
        .setSequences [0, 0] [0, 1], .repack 0 1, .restore [⟨0, 5, 5⟩], .swapNegative 0 1, .pack]
    (turnedUnderSoft.Coherent ∧ (∀ b ∈ turnedUnderSoft.blocks, b.HasKeySides) ∧
      turnedUnderSoft.pack = turnedUnderSoft) ∧
      turnedUnderSoft.after calls ≠ turnedUnderSoft ∧
      (load true turnedUnderSoft.snapshot).run (turnedUnderSoft.after calls)
        = .ok () turnedUnderSoft ∧
      (load false turnedUnderSoft.snapshot).run (turnedUnderSoft.after calls)
        = .ok () turnedUnderSoft := by
  intro calls
  have hpair : turnedUnderSoft.Coherent := SequencePair.coherent_ofSequences (by decide) (by decide)
  have hsides : ∀ b ∈ turnedUnderSoft.blocks, b.HasKeySides := by
    simp only [turnedUnderSoft, List.forall_mem_cons, List.not_mem_nil, false_imp_iff,
      implies_true, and_true]
    exact ⟨⟨by decide, rfl⟩, rfl⟩
  have hpacked : turnedUnderSoft.pack = turnedUnderSoft := by decide +kernel
  exact ⟨⟨hpair, hsides, hpacked⟩,
    by decide +kernel, load_snapshot_after hpair hsides hpacked calls⟩

end Layout

end BlockPlan
