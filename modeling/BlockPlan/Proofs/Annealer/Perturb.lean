import BlockPlan.Annealer.Run
import BlockPlan.Proofs.Annealer.Moves
import BlockPlan.Proofs.Cost.Tally

/-!
# Making a move and taking it back

A plan is *sound* when its layout is, its norms are above zero, and the record of its last move can
be reverted.  A move of a sound plan fails in one case only, which is when it would turn a block
that repeats a single orientation; then the plan stays as it is.

* `Setup.Fair` — what a setup has to be for measuring and weighing not to fail.
* `run_perturb_stuck` — the one way in which a move fails.
* **`run_perturb`** — every other move leads to a sound plan, from which the plan before the move is
  restored exactly.
* `restore_leads` — restoring never fails in a sound plan.
* `run_load` — loading what was kept of a plan gives its layout and its raw values back.
-/

namespace BlockPlan

variable {ρ : Type}

/-- A setup whose outline has an area, whose weights are not negative, whose initial sequences are
accepted, and whose initial temperature accepts some moves uphill. -/
structure Setup.Fair (setup : Setup Rat) : Prop where
  area_ne : setup.objective.outlineArea ≠ 0
  weights_nonneg : ∀ t, 0 ≤ setup.objective.weights.get t
  initial : ∀ sequences, setup.initial = some sequences →
    ∃ q, (SequencePair.ofPermutations setup.design.blocks.length sequences.1 sequences.2
      : Except (Fault Rat) SequencePair) = .ok q
  acceptance_pos : 0 < setup.schedule.initialAcceptance

namespace Plan

variable {setup : Setup Rat} {known : Layout.Makeups Rat} {p q : Plan Rat}

/-- A plan of blocks of given makeups that can be measured, weighed and restored. -/
structure Sound (known : Layout.Makeups Rat) (p : Plan Rat) : Prop where
  layout : p.layout.Sound known
  norms : p.tally.PositiveNorms
  lastMove : ∀ m, p.lastMove = some m → m.changes.Fits known

/-- Whether the next draws pick a turn of a block that cannot be turned. -/
def Stuck [DrawSource ρ Rat] (setup : Setup Rat) (p : Plan Rat) (r : ρ) : Prop :=
  setup.table.pick (DrawSource.unit r).1 = .rotate ∧ p.layout.StuckTurn (DrawSource.unit r).2

/-- No move is stuck when every block lists every orientation once. -/
lemma Sound.not_stuck [DrawSource ρ Rat] {blocks : List (Block Rat)}
    (h : p.Sound (blocks.map Block.makeup)) (hvaried : ∀ b ∈ blocks, b.Varied) (r : ρ) :
    ¬ p.Stuck setup r := by
  rintro ⟨-, i, b, -, hb, hstuck⟩
  have hmem : b.makeup ∈ blocks.map Block.makeup :=
    h.layout.makeups ▸ List.mem_map_of_mem (List.mem_of_getElem? hb)
  obtain ⟨c, hc, hmakeup⟩ := List.mem_map.mp hmem
  exact (hvaried c hc).not_stuck hmakeup.symm hstuck

/-! ## Moves of a known kind -/

section Move

variable [DrawSource ρ Rat]

/-- What is left of a move when its kind is known. -/
def move (setup : Setup Rat) (everything : Bool) (kind : MoveKind) :
    Edit Rat (Drawn (Plan Rat) ρ) Unit := do
  let p := (← get).state
  let step ← Edit.within (fun t => ⟨t.state.layout, t.draws⟩)
    (fun c t => { t with state := { t.state with layout := c.state }, draws := c.draws })
    (Layout.makeMove setup.objective.outlineWidth setup.objective.outlineHeight kind)
  Edit.onState do
    let moved ← onLayout (Layout.repackFrom step.touched)
    evaluate setup everything
    modify fun q => { q with lastMove := some ⟨step.kind, step.changes, moved, p.tally.raw.toList⟩ }

lemma outlineDominates_eq_ok (h : p.tally.PositiveNorms) (setup : Setup Rat) :
    ∃ b, p.outlineDominates setup = .ok b := by
  rw [outlineDominates]
  split_ifs
  · rw [Tally.costOfTerm_eq_ok h, cost, Tally.total_eq_ok h]
    exact ⟨_, rfl⟩
  · exact ⟨_, rfl⟩

/-- A draw that picks resizing makes a move that shrinks when blocks that stick out make most of the
cost. -/
lemma run_perturb_shrink {r : ρ} (hresize : setup.table.pick (DrawSource.unit r).1 = .resize)
    (hdominates : p.outlineDominates setup = .ok true) (everything : Bool) :
    (perturb setup everything).run ⟨p, r⟩
      = (move setup everything .shrink).run ⟨p, (DrawSource.unit r).2⟩ := by
  simp only [perturb, move, EStateM.run_bind, EStateM.run_get, Edit.run_drawUnit, hresize,
    hdominates, Edit.run_ofExcept_ok, if_true, EStateM.run_pure]

/-- A draw that picks another kind than resizing makes a move of this kind. -/
lemma run_perturb_picked {kind : MoveKind} {r : ρ}
    (hpick : setup.table.pick (DrawSource.unit r).1 = kind) (hkind : kind ≠ .resize) (p : Plan Rat)
    (everything : Bool) :
    (perturb setup everything).run ⟨p, r⟩
        = (move setup everything kind).run ⟨p, (DrawSource.unit r).2⟩ := by
  simp only [perturb, move, EStateM.run_bind, EStateM.run_get, Edit.run_drawUnit, hpick,
    if_neg hkind, EStateM.run_pure]

/-- A random move is one of a kind that the draw and the costs determine, a turn exactly if the draw
picks one, unless it cannot be told what most of the cost comes from. -/
lemma run_perturb_cases (p : Plan Rat) (setup : Setup Rat) (everything : Bool) (r : ρ) :
    (∃ kind, (perturb setup everything).run ⟨p, r⟩
        = (move setup everything kind).run ⟨p, (DrawSource.unit r).2⟩ ∧
      (kind = .rotate ↔ setup.table.pick (DrawSource.unit r).1 = .rotate)) ∨
    ∃ e, p.outlineDominates setup = .error e ∧
      (perturb setup everything).run ⟨p, r⟩ = .error e ⟨p, (DrawSource.unit r).2⟩ := by
  by_cases hresize : setup.table.pick (DrawSource.unit r).1 = .resize
  · cases hdominates : p.outlineDominates setup with
    | error e =>
        refine Or.inr ⟨e, rfl, ?_⟩
        simp only [perturb, EStateM.run_bind, EStateM.run_get, Edit.run_drawUnit, hresize,
          hdominates, Edit.run_ofExcept_error, if_true]
    | ok dominates =>
        cases dominates with
        | true =>
            exact Or.inl ⟨.shrink, run_perturb_shrink hresize hdominates everything,
              by simp [hresize]⟩
        | false =>
            refine Or.inl ⟨.resize, ?_, by simp [hresize]⟩
            simp only [perturb, move, EStateM.run_bind, EStateM.run_get, Edit.run_drawUnit, hresize,
              hdominates, Edit.run_ofExcept_ok, if_true, Bool.false_eq_true, if_false,
              EStateM.run_pure]
  · exact Or.inl ⟨_, run_perturb_picked rfl hresize p everything, Iff.rfl⟩

lemma run_perturb_eq (h : p.tally.PositiveNorms) (setup : Setup Rat) (everything : Bool) (r : ρ) :
    ∃ kind, (perturb setup everything).run ⟨p, r⟩
        = (move setup everything kind).run ⟨p, (DrawSource.unit r).2⟩ ∧
      (kind = .rotate ↔ setup.table.pick (DrawSource.unit r).1 = .rotate) := by
  refine (run_perturb_cases p setup everything r).resolve_right ?_
  rintro ⟨e, herror, -⟩
  obtain ⟨dominates, hok⟩ := outlineDominates_eq_ok h setup
  rw [hok] at herror
  cases herror

/-- A random move leads where the moves of every kind lead. -/
lemma perturb_leads {P Q E : Plan Rat → Prop} {everything : Bool} (hE : ∀ p, P p → E p)
    (h : ∀ kind, Edit.Leads (fun t : Drawn (Plan Rat) ρ => P t.state) (move setup everything kind)
      (fun _ t => Q t.state) (fun t => E t.state)) :
    Edit.Leads (fun t : Drawn (Plan Rat) ρ => P t.state) (perturb setup everything)
      (fun _ t => Q t.state) (fun t => E t.state) := by
  rintro ⟨p, r⟩ hp
  rcases run_perturb_cases p setup everything r with ⟨kind, hrun, -⟩ | ⟨e, -, hrun⟩
  · rw [hrun]
    exact h kind ⟨p, _⟩ hp
  · rw [hrun]
    exact hE p hp

/-- What a move has made of a plan.  The plan before is restored also when the terms have been
measured again. -/
structure Moved (setup : Setup Rat) (everything : Bool) (known : Layout.Makeups Rat)
    (p q : Plan Rat) : Prop where
  sound : q.Sound known
  packed : p.layout.pack = p.layout → q.layout.pack = q.layout
  tally : q.tally = p.tally.measured setup.objective everything q.layout
  restore : ∀ raw, restore.run { q with tally := { q.tally with raw := raw } }
    = .ok () { p with lastMove := none }

lemma positiveNorms_measured (h : p.tally.PositiveNorms) (o : Objective Rat) (everything : Bool)
    (l : Layout Rat) : (p.tally.measured o everything l).PositiveNorms := h

lemma run_evaluate (hsetup : setup.Fair) (everything : Bool) (p : Plan Rat) :
    (evaluate setup everything).run p
      = .ok () { p with tally := p.tally.measured setup.objective everything p.layout } := by
  simp only [evaluate, EStateM.run_bind, EStateM.run_get, Edit.run_within,
    Tally.run_evaluate hsetup.area_ne]

/-- What a move of a known kind makes of a plan when it is known what the kind makes of the layout,
and what packing anew makes of that: the terms are measured and the move is recorded. -/
lemma run_move_repacked (hsetup : setup.Fair) (everything : Bool) {kind : MoveKind} {r r' : ρ}
    {step : Step} {l' l'' : Layout Rat} {moved : List (Origin Rat)}
    (hmove : (Layout.makeMove setup.objective.outlineWidth setup.objective.outlineHeight kind).run
      ⟨p.layout, r⟩ = .ok step ⟨l', r'⟩)
    (hrepack : (Layout.repackFrom step.touched).run l' = .ok moved l'') :
    (move setup everything kind).run ⟨p, r⟩
        = .ok () ⟨⟨l'', p.tally.measured setup.objective everything l'',
      some ⟨step.kind, step.changes, moved, p.tally.raw.toList⟩⟩, r'⟩ := by
  simp only [move, EStateM.run_bind, EStateM.run_get, Edit.run_within, hmove, Edit.run_onState,
    onLayout, hrepack, run_evaluate hsetup, EStateM.run_modify]

variable [LawfulDraws ρ Rat]

/-- A move of a known kind, unless it would turn a block that cannot be turned. -/
lemma run_move (hsetup : setup.Fair) (h : p.Sound known) (everything : Bool) {kind : MoveKind}
    {r : ρ} (hstuck : ¬ (kind = .rotate ∧ p.layout.StuckTurn r)) :
    ∃ q r', (move setup everything kind).run ⟨p, r⟩ = .ok () ⟨q, r'⟩ ∧
      Moved setup everything known p q := by
  obtain ⟨step, l', r', hmove, heffect⟩ := Layout.makeMove_effect h.layout.keyed
    setup.objective.outlineWidth setup.objective.outlineHeight kind r hstuck
  obtain ⟨moved, l'', hrepack, hsound, hpacked, m, hrevert, hback⟩ :=
    heffect.repackFrom h.layout
  refine ⟨_, r', run_move_repacked hsetup everything hmove hrepack, ?_, hpacked, rfl, ?_⟩
  · refine ⟨hsound, h.norms, ?_⟩
    rintro _ ⟨⟩
    exact heffect.fits
  · intro raw
    simp only [restore, EStateM.run_bind, EStateM.run_get, onLayout, Edit.run_within, hrevert,
      EStateM.run_modify, hback, forget, Tally.load, PerTerm.overwrite_toList]
    rfl

/-- **A move that is not stuck leads to a sound plan, and is taken back exactly.** -/
theorem run_perturb (hsetup : setup.Fair) (h : p.Sound known) (everything : Bool) {r : ρ}
    (hstuck : ¬ p.Stuck setup r) :
    ∃ q r', (perturb setup everything).run ⟨p, r⟩ = .ok () ⟨q, r'⟩ ∧
      Moved setup everything known p q := by
  obtain ⟨kind, hrun, hrotate⟩ := run_perturb_eq h.norms setup everything r
  rw [hrun]
  exact run_move hsetup h everything fun hk => hstuck ⟨hrotate.mp hk.1, hk.2⟩

omit [LawfulDraws ρ Rat] in
/-- A move that is stuck fails and leaves the plan as it is. -/
theorem run_perturb_stuck (h : p.tally.PositiveNorms) (everything : Bool) {r : ρ}
    (hstuck : p.Stuck setup r) :
    ∃ r', (perturb setup everything).run ⟨p, r⟩ = .error .emptyDrawRange ⟨p, r'⟩ := by
  obtain ⟨kind, hrun, hrotate⟩ := run_perturb_eq h setup everything r
  obtain ⟨r', hmove⟩ := Layout.makeMove_stuck hstuck.2 setup.objective.outlineWidth
    setup.objective.outlineHeight
  refine ⟨r', ?_⟩
  rw [hrun, hrotate.mpr hstuck.1]
  simp only [move, EStateM.run_bind, EStateM.run_get, Edit.run_within, hmove]

end Move

/-! ## Taking back and loading -/

lemma restore_of_none (h : p.lastMove = none) : restore.run p = .ok () p := by
  simp only [restore, EStateM.run_bind, EStateM.run_get, h, EStateM.run_pure]

/-- Restoring a plan does not fail if its record can be reverted, and keeps of the layout what
changes of pair and shapes keep, wherever the blocks stand. -/
lemma run_restore {I : Layout Rat → Prop} (hI : Layout.Closed known I)
    (harrange : ∀ l f, I l → I (l.arrange f)) (hp : I p.layout)
    (hfits : ∀ m, p.lastMove = some m → m.changes.Fits known) :
    ∃ q, restore.run p = .ok () q ∧ I q.layout ∧ q.tally.norm = p.tally.norm ∧
      q.lastMove = none := by
  cases hlast : p.lastMove with
  | none => exact ⟨p, restore_of_none hlast, hp, rfl, hlast⟩
  | some m =>
      obtain ⟨_, l, hrevert, hl⟩ := (Layout.revert_leads hI (hfits m hlast)).ok hp
      refine ⟨⟨Layout.restore m.moved l, p.tally.load m.raw, none⟩, ?_, ?_, rfl, rfl⟩
      · simp only [restore, EStateM.run_bind, EStateM.run_get, hlast, onLayout, Edit.run_within,
          hrevert, EStateM.run_modify, forget]
      · rw [← l.arrange_points, Layout.restore_arrange]
        exact harrange l _ hl

/-- Restoring a sound plan does not fail, whether or not the last move was made right before. -/
theorem restore_leads :
    Edit.Leads (Sound known) restore (fun _ => Sound known) (fun _ => False) := by
  refine Edit.Leads.of_ok fun p h => ?_
  obtain ⟨q, hrun, hq, hnorm, hlast⟩ :=
    run_restore Layout.closed_sound (fun _ f hl => hl.arrange f) h.layout h.lastMove
  refine ⟨(), q, hrun, hq, ?_, by simp [hlast]⟩
  rw [Tally.PositiveNorms, hnorm]
  exact h.norms

/-- Loading what was kept of a plan gives its layout and its raw values back. -/
theorem run_load (hp : p.layout.Sound known) (hq : q.layout.Sound known) :
    (load q.keep).run p = .ok () ⟨q.layout, { p.tally with raw := q.tally.raw }, none⟩ := by
  simp only [load, keep, EStateM.run_bind, onLayout, Edit.run_within,
    Layout.run_load_snapshot hq hp.makeups, EStateM.run_modify, forget]

end Plan

end BlockPlan
