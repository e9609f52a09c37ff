import BlockPlan.Proofs.Annealer.Perturb

/-!
# Moving blocks that may be stretched

A plan is *keyed* when its layout is, its norms are above zero, and the record of its last move
names blocks, slots and shapes that there are.  This is less than being sound: the blocks may have
been stretched.  Moves of a keyed plan may not be taken back exactly, but they fail in the same
single case as those of a sound one, and taking back and loading do not fail at all.

* `Coherent.repackFrom` — packing anew after a move answers blocks that there are.
* `Plan.Keyed`, **`run_perturb_keyed`** — a move of a keyed plan that is not stuck leads to a keyed
  plan.
* `restore_keyed`, **`run_load_keyed`** — taking back and loading.
-/

namespace BlockPlan

variable {ρ : Type}

/-- The record of a move whose slots, shapes and blocks are those of blocks of given makeups. -/
structure Move.Fits (known : Layout.Makeups Rat) (m : Move Rat) : Prop where
  changes : m.changes.Fits known
  moved : ∀ o ∈ m.moved, o.block < known.length

namespace Layout

/-- Packing anew arranges the blocks, and answers blocks that there are. -/
lemma Coherent.repackFrom {l : Layout Rat} (h : l.Coherent) {touched : List Nat}
    (htouched : ∀ i ∈ touched, i < l.size) :
    ∃ moved points, (Layout.repackFrom touched).run l = .ok moved (l.arrange points) ∧
      ∀ o ∈ moved, o.block < l.size := by
  cases hnone : touched.isEmpty with
  | true =>
      refine ⟨[], l.points, ?_, by simp⟩
      simp only [Layout.repackFrom, hnone, if_true, EStateM.run_pure, arrange_points]
  | false =>
      obtain ⟨a, b, hfirst, ha, hb, -⟩ := SequencePair.firstSlots_natCast (α := Rat) h htouched
      refine ⟨(l.repack a b).1, (l.repack a b).2.points, ?_, fun o ho => ?_⟩
      · rw [run_repackFrom hnone hfirst, ← repack_eq_arrange h.permuted]
      · exact ((mem_repack_iff h.permuted ha hb).mp ho).1

end Layout

namespace Plan

variable {setup : Setup Rat} {known : Layout.Makeups Rat} {p q : Plan Rat}

/-- A plan of blocks of given makeups, stretched or not, that can be weighed and restored. -/
structure Keyed (known : Layout.Makeups Rat) (p : Plan Rat) : Prop where
  layout : p.layout.Keyed known
  norms : p.tally.PositiveNorms
  lastMove : ∀ m, p.lastMove = some m → m.Fits known

/-- What can have been kept of a keyed plan. -/
def KeptKeyed (known : Layout.Makeups Rat) (k : Kept Rat) : Prop :=
  ∃ q : Plan Rat, q.layout.Keyed known ∧ k = q.keep

section Moves

variable [DrawSource ρ Rat] [LawfulDraws ρ Rat]

omit [LawfulDraws ρ Rat] in
/-- What a move of a known kind makes of a plan when it is known what the kind makes of the layout:
the blocks are arranged anew, the terms measured and the move recorded. -/
lemma run_move_eq (hsetup : setup.Fair) (everything : Bool) {kind : MoveKind} {r r' : ρ}
    {step : Step} {l' : Layout Rat}
    (hmove : (Layout.makeMove setup.objective.outlineWidth setup.objective.outlineHeight kind).run
      ⟨p.layout, r⟩ = .ok step ⟨l', r'⟩)
    (hkeyed : p.layout.Keyed known)
    (heffect : Layout.Effect known step.touched step.changes p.layout l') :
    ∃ moved points, (move setup everything kind).run ⟨p, r⟩ = .ok () ⟨⟨l'.arrange points,
        p.tally.measured setup.objective everything (l'.arrange points),
        some ⟨step.kind, step.changes, moved, p.tally.raw.toList⟩⟩, r'⟩ ∧
      ∀ o ∈ moved, o.block < known.length := by
  have hsize := heffect.confined.size
  have hkeyed' := heffect.keyed hkeyed
  have htouched := heffect.touched_lt
  rw [← hsize] at htouched
  obtain ⟨moved, points, hrepack, hmoved⟩ := hkeyed'.coherent.repackFrom htouched
  rw [hkeyed'.size] at hmoved
  exact ⟨moved, points, run_move_repacked hsetup everything hmove hrepack, hmoved⟩

lemma run_move_keyed (hsetup : setup.Fair) (h : p.Keyed known) (everything : Bool) {kind : MoveKind}
    {r : ρ} (hstuck : ¬ (kind = .rotate ∧ p.layout.StuckTurn r)) :
    ∃ q r', (move setup everything kind).run ⟨p, r⟩ = .ok () ⟨q, r'⟩ ∧ q.Keyed known ∧
      q.tally.norm = p.tally.norm := by
  obtain ⟨step, l', r', hmove, heffect⟩ := Layout.makeMove_effect h.layout
    setup.objective.outlineWidth setup.objective.outlineHeight kind r hstuck
  obtain ⟨moved, points, hrun, hmoved⟩ := run_move_eq hsetup everything hmove h.layout heffect
  refine ⟨_, r', hrun, ⟨(heffect.keyed h.layout).arrange points, h.norms, ?_⟩, rfl⟩
  rintro _ ⟨⟩
  exact ⟨heffect.fits, hmoved⟩

/-- **A move of a keyed plan that is not stuck leads to a keyed plan.** -/
theorem run_perturb_keyed (hsetup : setup.Fair) (h : p.Keyed known) (everything : Bool) {r : ρ}
    (hstuck : ¬ p.Stuck setup r) :
    ∃ q r', (perturb setup everything).run ⟨p, r⟩ = .ok () ⟨q, r'⟩ ∧ q.Keyed known ∧
      q.tally.norm = p.tally.norm := by
  obtain ⟨kind, hrun, hrotate⟩ := run_perturb_eq h.norms setup everything r
  rw [hrun]
  exact run_move_keyed hsetup h everything fun hk => hstuck ⟨hrotate.mp hk.1, hk.2⟩

end Moves

/-! ## Taking back and loading -/

theorem restore_keyed :
    Edit.Leads (Keyed known) restore (fun _ => Keyed known) (fun _ => False) := by
  refine Edit.Leads.of_ok fun p h => ?_
  obtain ⟨q, hrun, hq, hnorm, hlast⟩ := run_restore Layout.closed_keyed
    (fun _ f hl => hl.arrange f) h.layout fun m hm => (h.lastMove m hm).changes
  refine ⟨(), q, hrun, hq, ?_, by simp [hlast]⟩
  rw [Tally.PositiveNorms, hnorm]
  exact h.norms

/-- **Loading what was kept of a keyed plan gives its layout back with all blocks in shape, and its
raw values.** -/
theorem run_load_keyed (hp : p.layout.blocks.map Block.makeup = known) (hq : q.layout.Keyed known) :
    (load q.keep).run p = .ok () ⟨q.layout.inShape, { p.tally with raw := q.tally.raw }, none⟩ := by
  simp only [load, keep, EStateM.run_bind, onLayout, Edit.run_within, Layout.run_load_keyed hq hp,
    EStateM.run_modify, forget]

end Plan

end BlockPlan
