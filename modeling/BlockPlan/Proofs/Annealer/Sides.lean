import BlockPlan.Proofs.Annealer.Snaps
import BlockPlan.Proofs.Annealer.Tasks

/-!
# Blocks keep their sides above zero

A block gets its sides from one of its shapes, or by growing, and everything else that is done to a
layout moves blocks about.  So no block ever loses its sides, whatever is asked of an annealer, in
whatever order, and whether it succeeds or fails.  Nothing has to be known of the sequences, the
draws or the tally for this.

* `Block.Solid` — a block with sides above zero, now and in all its shapes.
* `Block.setShape_solid` — putting a shape in force keeps a block solid.
* `Layout.makeMove_keeps` — whatever shapes keep of a block, a move of any kind keeps of all blocks
  of a layout.
* **`Plan.perturb_solid`**, `Plan.restore_solid`, `Plan.load_solid` — the operations of a plan.
* **`Annealer.carryOut_solid`**, **`Annealer.afterTasks_solid`** — every task, and any list of them.
-/

namespace BlockPlan

open Edit (Leads Maintains)

variable {ρ : Type}

/-! ## One block -/

namespace Block

variable {b b' : Block Rat}

/-- A block whose sides are above zero, as are those of all shapes that it may take. -/
structure Solid (b : Block Rat) : Prop where
  width : 0 < b.width
  height : 0 < b.height
  shapes : b.PositiveShapes

lemma WellFormed.solid (h : b.WellFormed) : b.Solid := ⟨h.sides.1, h.sides.2, h.positive⟩

lemma Solid.place (h : b.Solid) (x y : Rat) : (b.place x y).Solid := ⟨h.width, h.height, h.shapes⟩

lemma Solid.moveTo (h : b.Solid) (axis : Axis) (v : Rat) : (b.moveTo axis v).Solid := by
  obtain ⟨x, y, hplace⟩ := Layout.place_of_moveTo axis v b
  exact hplace ▸ h.place x y

/-- A block that covers what it was has no shorter sides. -/
lemma GrownFrom.solid {width height : Rat} (h : b.GrownFrom width height b') (hb : b.Solid) :
    b'.Solid := by
  obtain ⟨x, y, w, l, rfl⟩ := h.stretched
  obtain ⟨hx, hy, hxMax, hyMax⟩ := h.covers
  simp only [box, xMax, yMax, stretch] at hx hy hxMax hyMax
  have hw := hb.width
  have hl := hb.height
  exact ⟨show 0 < w by linarith, show 0 < l by linarith, hb.shapes⟩

/-- **Putting a shape in force keeps a block solid**; where the shape is refused, the sides stay as
they are. -/
theorem setShape_solid (key : ShapeKey) : Maintains Solid (setShape (α := Rat) key) := by
  refine Maintains.read fun b hb => ?_
  obtain ⟨name, form, x, y, width, height, edge⟩ := b
  obtain ⟨hwidth, hheight, hshapes⟩ := hb
  cases form with
  | hard w h allowed o =>
      cases key with
      | candidate i => exact Maintains.throw _
      | orientation o' =>
          have hsides := orientedSides_pos hshapes.1 hshapes.2 o'
          exact Leads.ite (fun _ => Maintains.set ⟨hsides.1, hsides.2, hshapes⟩)
            fun _ => Maintains.throw _
  | soft candidates index =>
      cases key with
      | orientation o => exact Maintains.throw _
      | candidate i =>
          refine Leads.bind (Maintains.set ⟨hwidth, hheight, hshapes⟩) fun _ => ?_
          refine Leads.bind (Leads.ofExcept (Q := fun c b => b.Solid ∧ c ∈ candidates)
            (fun c hc _ hb => ⟨hb, Slot.mem_of_entry hc⟩) fun _ _ _ hb => hb) fun c => ?_
          exact Leads.fact fun hc => Maintains.set ⟨(hshapes c hc).1, (hshapes c hc).2, hshapes⟩

/-! ## Whatever shapes keep -/

section Shapes

variable [DrawSource ρ Rat] {K : Block Rat → Prop}
    (hK : ∀ key, Maintains K (setShape (α := Rat) key))

include hK

lemma alternate_keeps : Maintains (fun t : Drawn (Block Rat) ρ => K t.state) alternate := by
  refine Maintains.read fun t ht => ?_
  dsimp only
  split
  · refine Leads.ite (fun _ => Leads.pure fun _ h => h) fun _ => ?_
    refine Leads.bind (Maintains.drawBelow _) fun i => ?_
    split
    · exact Leads.bind (hK _).onState fun _ => Leads.pure fun _ h => h
    · exact Leads.bind (Maintains.throw _) fun _ => Leads.pure fun _ h => h
  · exact Leads.pure fun _ h => h

lemma resize_keeps : Maintains (fun t : Drawn (Block Rat) ρ => K t.state) resize := by
  refine Maintains.read fun t ht => ?_
  dsimp only
  split
  · refine Leads.ite (fun _ => Leads.pure fun _ h => h) fun _ => ?_
    refine Leads.bind (Maintains.drawBelow _) fun i => ?_
    exact Leads.bind (hK _).onState fun _ => Leads.pure fun _ h => h
  · exact Leads.pure fun _ h => h

omit [DrawSource ρ Rat] in
lemma shrink_keeps (horizontal : Bool) : Maintains K (shrink (α := Rat) horizontal) := by
  refine Maintains.read fun b hb => ?_
  split
  · refine Leads.bind (Maintains.ofExcept _) fun current => ?_
    split
    · exact Leads.pure fun _ h => h
    · exact Leads.bind (hK _) fun _ => Leads.pure fun _ h => h
  · exact Leads.pure fun _ h => h

end Shapes

end Block

/-- Blocks of a kind one of which is replaced by one of the kind. -/
lemma kind_set {K : Block Rat → Prop} {blocks : List (Block Rat)} (h : ∀ b ∈ blocks, K b) (i : Nat)
    {b : Block Rat} (hb : K b) : ∀ c ∈ blocks.set i b, K c := by
  intro c hc
  rcases List.mem_or_eq_of_mem_set hc with hc | rfl
  exacts [h c hc, hb]

/-! ## Layouts -/

namespace Layout

/-- A layout of solid blocks. -/
def Solid (l : Layout Rat) : Prop := ∀ b ∈ l.blocks, b.Solid

variable {l : Layout Rat}

/-- A layout all of whose blocks are of a kind. -/
def All (K : Block Rat → Prop) (l : Layout Rat) : Prop := ∀ b ∈ l.blocks, K b

lemma editPair_keeps {K : Block Rat → Prop} (f : SequencePair → Except (Fault Rat) SequencePair) :
    Maintains (All K) (editPair f) :=
  editPair_maintains fun _ _ hl _ => hl

lemma setShape_keeps {K : Block Rat → Prop}
    (hK : ∀ key, Maintains K (Block.setShape (α := Rat) key)) (slot : Int) (key : ShapeKey) :
    Maintains (All K) (setShape (α := Rat) slot key) := by
  have hedit : Maintains (fun bs : List (Block Rat) => ∀ b ∈ bs, K b)
      (Block.editAt slot (Block.setShape key)) := by
    refine Maintains.read fun bs hbs => Leads.bind (Maintains.ofExcept _) fun i => ?_
    split
    · exact Maintains.throw _
    · rename_i b hb
      exact (hK key).within (fun _ _ => hbs b (List.mem_of_getElem? hb))
        fun c _ hbs' hc => kind_set hbs' i hc
  exact hedit.within (fun _ hl => hl) fun _ _ _ hbs => hbs

/-! ## Packing and putting back -/

lemma sweep_solid (axis : Axis) (key : Nat → Int) (start : Int) (slot : Nat) (order : List Nat)
    (stair : Staircase Rat) {blocks : List (Block Rat)} (h : ∀ b ∈ blocks, b.Solid) :
    ∀ b ∈ sweep axis key start slot order stair blocks, b.Solid := by
  induction order generalizing slot stair blocks with
  | nil => exact h
  | cons i rest ih =>
      rw [sweep]
      split
      · exact ih _ _ h
      · rename_i b hb
        have hsolid := h b (List.mem_of_getElem? hb)
        refine ih _ _ (kind_set h i ?_)
        split_ifs
        exacts [hsolid.moveTo axis _, hsolid]

lemma Solid.repack (h : l.Solid) (a b : Int) : (l.repack a b).2.Solid :=
  sweep_solid _ _ _ _ _ _ (sweep_solid _ _ _ _ _ _ h)

lemma Solid.pack (h : l.Solid) : l.pack.Solid := sweep_solid _ _ _ _ _ _ (sweep_solid _ _ _ _ _ _ h)

lemma Solid.arrange (h : l.Solid) (f : Nat → Rat × Rat) : (l.arrange f).Solid := by
  intro b hb
  obtain ⟨i, hi⟩ := List.mem_iff_getElem?.mp hb
  rw [getElem?_arrange] at hi
  obtain ⟨c, hc, rfl⟩ := Option.map_eq_some_iff.mp hi
  exact (h c (List.mem_of_getElem? hc)).place _ _

lemma Solid.restore (h : l.Solid) (moved : List (Origin Rat)) : (l.restore moved).Solid := by
  rw [← l.arrange_points, Layout.restore_arrange]
  exact h.arrange _

/-! ## Moves -/

section Moves

variable [DrawSource ρ Rat] {K : Block Rat → Prop}

omit [DrawSource ρ Rat] in
/-- An edit of a block beside the draws keeps the blocks of a layout of a kind if it keeps this
block of it. -/
lemma editDrawn_keeps {β : Type} (i : Nat) {edit : Edit Rat (Drawn (Block Rat) ρ) β}
    (h : Maintains (fun t => K t.state) edit) :
    Maintains (fun t : Drawn (Layout Rat) ρ => t.state.All K) (editDrawn i edit) := by
  refine Maintains.read fun t ht => ?_
  dsimp only
  split
  · exact Maintains.throw _
  · rename_i b hb
    exact h.within (fun _ _ => ht b (List.mem_of_getElem? hb)) fun c _ _ hc => kind_set ht i hc

lemma twoDistinct_keeps (n : Nat) :
    Maintains (fun t : Drawn (Layout Rat) ρ => t.state.All K) (twoDistinct n) :=
  Leads.bind (Maintains.drawBelow n) fun _ => Leads.bind (Maintains.drawBelow _) fun _ =>
    Leads.pure fun _ h => h

lemma drawBlock_keeps (pool : List Nat) :
    Maintains (fun t : Drawn (Layout Rat) ρ => t.state.All K) (drawBlock pool) := by
  refine Leads.bind (Maintains.drawBelow _) fun i => ?_
  split
  · exact Leads.pure fun _ h => h
  · exact Maintains.throw _

lemma sequenceSwap_keeps (sign : Sign) (kind : MoveKind) :
    Maintains (fun t : Drawn (Layout Rat) ρ => t.state.All K) (sequenceSwap sign kind) := by
  refine Maintains.read fun t _ => Leads.ite (fun _ => Leads.pure fun _ h => h) fun _ => ?_
  refine Leads.bind (twoDistinct_keeps _) fun v => Leads.bind (editPair_keeps _).onState fun _ => ?_
  exact Maintains.read fun _ _ => Leads.pure fun _ h => h

lemma reshape_keeps (hard : Bool) (kind : MoveKind) {edit : Edit Rat (Drawn (Block Rat) ρ) ShapeKey}
    (h : Maintains (fun t => K t.state) edit) :
    Maintains (fun t : Drawn (Layout Rat) ρ => t.state.All K) (reshape hard kind edit) := by
  refine Maintains.read fun t _ => Leads.ite (fun _ => sequenceSwap_keeps _ _) fun _ => ?_
  refine Leads.bind (drawBlock_keeps _) fun i => ?_
  exact Leads.bind (editDrawn_keeps i h) fun _ => Leads.pure fun _ h => h

lemma exchange_keeps : Maintains (fun t : Drawn (Layout Rat) ρ => t.state.All K) exchange := by
  refine Maintains.read fun t _ => Leads.ite (fun _ => Leads.pure fun _ h => h) fun _ => ?_
  refine Leads.bind (twoDistinct_keeps _) fun v => Leads.bind (editPair_keeps _).onState fun _ => ?_
  exact Leads.bind (editPair_keeps _).onState fun _ => Leads.pure fun _ h => h

variable (hK : ∀ key, Maintains K (Block.setShape (α := Rat) key))

include hK

lemma shrinkBlock_keeps (horizontal : Bool) :
    Maintains (fun t : Drawn (Block Rat) ρ => K t.state) (shrinkBlock horizontal) := by
  refine Leads.bind (Block.shrink_keeps hK _).onState fun first => ?_
  split
  · exact Leads.pure fun _ h => h
  · refine Leads.bind (Block.shrink_keeps hK _).onState fun second => ?_
    split
    · exact Leads.pure fun _ h => h
    · exact Leads.bind (Block.resize_keeps hK) fun _ => Leads.pure fun _ h => h

/-- **A move of any kind keeps whatever putting a shape in force keeps of a block.** -/
theorem makeMove_keeps (width height : Rat) (kind : MoveKind) :
    Maintains (fun t : Drawn (Layout Rat) ρ => t.state.All K) (makeMove width height kind) := by
  cases kind with
  | positiveSwap => exact sequenceSwap_keeps .positive _
  | negativeSwap => exact sequenceSwap_keeps .negative _
  | doubleSwap =>
      exact Leads.bind (sequenceSwap_keeps .positive _) fun _ =>
        Leads.bind (sequenceSwap_keeps .negative _) fun _ => Leads.pure fun _ h => h
  | exchange => exact exchange_keeps
  | resize => exact reshape_keeps false .resize (Block.resize_keeps hK)
  | rotate => exact reshape_keeps true .rotate (Block.alternate_keeps hK)
  | shrink =>
      refine Maintains.read fun t _ => Leads.ite (fun _ => sequenceSwap_keeps _ _) fun _ => ?_
      refine Leads.bind (drawBlock_keeps _) fun i => ?_
      exact Leads.bind (editDrawn_keeps i (shrinkBlock_keeps hK _)) fun _ => Leads.pure fun _ h => h

omit [DrawSource ρ Rat] in
lemma revert_keeps (c : Changes) : Maintains (All K) (revert (α := Rat) c) := by
  refine Leads.bind (Leads.forM fun s _ => editPair_keeps _) fun _ => ?_
  exact Leads.bind (Leads.forM fun s _ => editPair_keeps _) fun _ => Leads.forM fun s _ =>
    setShape_keeps hK _ _

end Moves

lemma repackFrom_solid (blocks : List Nat) : Maintains Solid (repackFrom (α := Rat) blocks) := by
  refine Leads.ite (fun _ => Leads.pure fun _ h => h) fun _ => Maintains.read fun l hl => ?_
  refine Leads.bind (Maintains.ofExcept _) fun slots => ?_
  exact Leads.bind (Maintains.set (hl.repack _ _)) fun _ => Leads.pure fun _ h => h

/-! ## Loading -/

lemma load_solid (positions : Bool) (s : Snapshot Rat) : Maintains Solid (load positions s) := by
  refine load_leads (fun _ h => h) (setShape_keeps Block.setShape_solid) (fun _ l hl b hb => ?_)
    fun _ _ h => Solid.pack h
  obtain ⟨i, hi, rfl⟩ := List.mem_mapIdx.mp hb
  split
  exacts [(hl _ (List.getElem_mem hi)).place _ _, hl _ (List.getElem_mem hi)]

end Layout

/-! ## Plans -/

namespace Plan

/-- A plan of solid blocks. -/
def Solid (p : Plan Rat) : Prop := p.layout.Solid

lemma onLayout_solid {β : Type} {edit : Edit Rat (Layout Rat) β} (h : Maintains Layout.Solid edit) :
    Maintains Solid (onLayout edit) :=
  h.within (fun _ hp => hp) fun _ _ _ hl => hl

variable (setup : Setup Rat)

/-- Measuring does not change the layout. -/
lemma evaluate_solid (everything : Bool) : Maintains Solid (evaluate setup everything) :=
  Maintains.read fun _ _ => Maintains.beside _ fun _ _ hp => hp

lemma forget_solid : Maintains Solid (forget (α := Rat)) := Leads.modify fun _ hp => hp

section Moves

variable [DrawSource ρ Rat]

/-- **A random move keeps a plan solid.** -/
theorem perturb_solid (everything : Bool) :
    Maintains (fun t : Drawn (Plan Rat) ρ => t.state.Solid) (perturb setup everything) := by
  refine perturb_leads (fun _ h => h) fun kind => Maintains.read fun t _ => ?_
  refine Leads.bind ((Layout.makeMove_keeps Block.setShape_solid _ _ kind).within (fun _ h => h)
      fun _ _ _ h => h)
    fun step => ?_
  refine Leads.onState (Leads.bind (onLayout_solid (Layout.repackFrom_solid _)) fun moved => ?_)
  exact Leads.bind (evaluate_solid setup everything) fun _ => Leads.modify fun _ h => h

end Moves

/-- Taking a move back keeps a plan solid. -/
lemma restore_solid : Maintains Solid (restore (α := Rat)) := by
  refine Maintains.read fun p _ => ?_
  split
  · exact Leads.pure fun _ h => h
  · refine Leads.bind (onLayout_solid (Layout.revert_keeps Block.setShape_solid _)) fun _ => ?_
    refine Leads.bind (onLayout_solid (Leads.modify fun _ hl => hl.restore _)) fun _ => ?_
    exact Leads.bind (Leads.modify fun _ h => h) fun _ => forget_solid

/-- Loading keeps a plan solid, whatever has been kept. -/
lemma load_solid (k : Kept Rat) : Maintains Solid (load k) := by
  refine Leads.bind (onLayout_solid (Layout.load_solid true _)) fun _ => ?_
  exact Leads.bind (Leads.modify fun _ h => h) fun _ => forget_solid

variable {setup}

/-- Filling dead space does not fail, and keeps a plan solid. -/
lemma fill_solid (hsetup : setup.Fair) (hwidth : 0 < setup.objective.outlineWidth)
    (hheight : 0 < setup.objective.outlineHeight) :
    Leads Solid (fill setup) (fun _ => Solid) fun _ => False := by
  refine Leads.of_ok fun p hp => ⟨(), _, run_fill hsetup p, fun b hb => ?_⟩
  obtain ⟨i, hi, rfl⟩ := List.mem_iff_getElem.mp hb
  have hgrown := (Objective.fillDeadSpace_filled hwidth hheight p.layout.blocks).grown
  have hi' : i < p.layout.blocks.length := hgrown.length_eq ▸ hi
  exact (hgrown.get hi' hi).solid (hp _ (List.getElem_mem hi'))

/-- Aligning does not fail either, and keeps a plan solid. -/
lemma align_solid (hsetup : setup.Fair) (h? v? : Option Rat) :
    Leads Solid (align setup h? v?) (fun _ => Solid) fun _ => False := by
  refine Leads.of_ok fun p hp => ?_
  obtain ⟨q, hrun, hq, -⟩ :=
    run_align_keeps hsetup h? v? (P := fun blocks => ∀ b ∈ blocks, b.Solid) hp
    fun i _ x y blocks hblocks => by
      rcases setup.objective.tryPlace_cases i x y blocks with hsame | ⟨b, hb, -, -, hset⟩
      · rwa [hsame]
      · rw [hset]
        exact kind_set hblocks i ((hblocks b (List.mem_of_getElem? hb)).place x y)
  exact ⟨(), q, hrun, hq⟩

end Plan

/-! ## Annealers -/

namespace Annealer

/-- An annealer whose plan is solid. -/
def Solid (a : Annealer Rat ρ) : Prop := a.plan.Solid

section Edits

variable {β : Type}

lemma onRun_solid {edit : Edit Rat (Run Rat (Plan Rat) ρ) β}
    (h : Maintains (fun r => r.current.state.Solid) edit) : Maintains Solid (onRun edit) :=
  h.within (fun _ ha => ha) fun _ _ _ hr => hr

lemma onDrawn_solid {edit : Edit Rat (Drawn (Plan Rat) ρ) β}
    (h : Maintains (fun t => t.state.Solid) edit) : Maintains Solid (onDrawn edit) :=
  onRun_solid (h.within (fun _ ht => ht) fun _ _ _ ht => ht)

lemma onPlan_solid {edit : Edit Rat (Plan Rat) β} (h : Maintains Plan.Solid edit) :
    Maintains (Solid (ρ := ρ)) (onPlan edit) :=
  onDrawn_solid h.onState

lemma note_solid (e : Event Rat) : Maintains (Solid (ρ := ρ)) (onRun (Annealing.note e)) :=
  onRun_solid (Leads.modify fun _ h => h)

end Edits

variable [DrawSource ρ Rat] {setup : Setup Rat}

lemma installInitial_solid : Maintains Layout.Solid (installInitial setup) := by
  rw [installInitial]
  split
  · exact Maintains.read fun _ _ => Layout.editPair_keeps _
  · exact Maintains.read fun _ _ => Maintains.read fun _ _ => Layout.editPair_keeps _

/-- The operations of a plan keep it solid, whatever has been kept of plans. -/
lemma keeps_solid :
    (Plan.space setup : SearchSpace Rat (Plan Rat) ρ (Kept Rat)).Keeps Plan.Solid
      fun _ => True where
  perturb := Plan.perturb_solid setup false
  restore := Plan.restore_solid
  keep := fun _ _ => trivial
  load := fun k _ => Plan.load_solid k

variable [Transcendental Rat]

lemma calibrate_solid : Maintains (Solid (ρ := ρ)) (calibrate setup) := by
  refine Leads.bind (onPlan_solid (Plan.onLayout_solid installInitial_solid)) fun _ => ?_
  refine Leads.bind (onPlan_solid (Plan.onLayout_solid (Leads.modify fun _ hl => hl.pack)))
    fun _ => ?_
  refine Maintains.read fun opening _ => ?_
  refine Leads.bind (onPlan_solid (Plan.evaluate_solid setup true)) fun _ => ?_
  refine Leads.bind (onDrawn_solid (walk_leads (Plan.perturb_solid setup true) _)) fun samples => ?_
  refine Leads.bind (onPlan_solid (Leads.modify fun _ hp => hp)) fun _ =>
    Maintains.read fun measured _ => ?_
  refine Leads.bind (Maintains.ofExcept _) fun costs =>
    Leads.bind (Maintains.ofExcept _) fun temperature => ?_
  refine Leads.bind (Leads.modify (Q := fun _ => Solid) fun _ ha => ha) fun _ => ?_
  -- the way back to where the walk has begun
  refine Leads.bind (onPlan_solid (Plan.onLayout_solid (Layout.load_solid true _))) fun _ => ?_
  refine Leads.bind (onPlan_solid (Plan.evaluate_solid setup true)) fun _ => ?_
  refine Leads.bind (onPlan_solid Plan.forget_solid) fun _ => ?_
  refine Leads.bind (Leads.forM fun term _ => note_solid _) fun _ => Maintains.read fun last _ => ?_
  exact Leads.bind (Maintains.ofExcept _) fun cost => note_solid _

lemma anneal_solid (hsetup : setup.Fair) : Maintains (Solid (ρ := ρ)) (anneal setup) := by
  have hrun := anneal_leads (T := fun _ => True) (P := Solid (ρ := ρ)) keeps_solid
    (Leads.of_ok fun p h => ⟨(), _, Plan.run_evaluate hsetup true p, h⟩)
    (calibrate_solid.mono (fun _ h => h.1) (fun _ _ h => ⟨h, trivial⟩) fun _ h => ⟨h, trivial⟩)
    fun a ha _ => ⟨ha, trivial⟩
  exact hrun.mono (fun _ h => h) (fun _ _ h => h.1) fun _ h => h.1

variable (hsetup : setup.Fair) (hwidth : 0 < setup.objective.outlineWidth)
  (hheight : 0 < setup.objective.outlineHeight)

include hsetup hwidth hheight

/-- **Every task keeps a plan solid**, whether it succeeds or fails. -/
theorem carryOut_solid (task : Task) : Maintains (Solid (ρ := ρ)) (carryOut setup task) := by
  cases task with
  | calibrate => exact calibrate_solid
  | perturb => exact onDrawn_solid (Plan.perturb_solid setup false)
  | restore => exact onPlan_solid Plan.restore_solid
  | run => exact Leads.bind (anneal_solid hsetup) fun _ => Leads.pure fun _ h => h
  | fill => exact onPlan_solid (Plan.fill_solid hsetup hwidth hheight).of_total
  | align h? v? => exact onPlan_solid (Plan.align_solid hsetup h? v?).of_total

/-- **Whatever is asked of an annealer, its blocks keep sides above zero.** -/
theorem afterTasks_solid (tasks : List Task) {a : Annealer Rat ρ} (ha : a.Solid) :
    (a.afterTasks setup tasks).Solid :=
  afterTasks_keeps (fun task _ => carryOut_solid hsetup hwidth hheight task) ha

end Annealer

end BlockPlan
