import BlockPlan.Proofs.Annealer.Session
import BlockPlan.Proofs.Draws.Stream

/-!
# Taking a move back

Whatever has been done with an annealer since it was made, a move that succeeds is taken back
exactly: the sequences with their slots, the position, the sides and the shape of every block, and
the raw values of all terms are those before the move, and so is the cost.

A move fails in one case.  A hard block may list one orientation several times; it then has a choice
of shapes, but no other one than the one in force.  When a turn picks such a block the draw fails,
the plan stays as it is, and taking back takes back the move before.

* **`perturb_restore`** — both cases, for every plan that a session reaches.
-/

namespace BlockPlan

namespace Session

/-- **A move is taken back exactly, unless it would turn a block that cannot be turned.**  In the
first case the plan before the move comes back, without a last move, and taking back once more
changes nothing. In the second case the move fails and leaves the plan as it is, with the record of
the move before. -/
theorem perturb_restore {ρ : Type} [DrawSource ρ Rat] [LawfulDraws ρ Rat] [Transcendental Rat]
    {d : Design Rat} {settings : Settings Rat} {setup : Setup Rat} {plan : Plan Rat}
    (hmade : Setup.ofDesign d settings = .ok (setup, plan))
    (hblocks : ∀ b ∈ d.blocks, b.WellFormed) (draws : ρ) (commands : List Command)
    (everything : Bool) (r : ρ) :
    let p := (after setup commands ⟨Annealer.start plan draws, []⟩).annealer.plan
    (¬ p.Stuck setup r → ∃ q r',
        (Plan.perturb setup everything).run ⟨p, r⟩ = .ok () ⟨q, r'⟩ ∧
        Plan.restore.run q = .ok () { p with lastMove := none } ∧
        Plan.restore.run { p with lastMove := none } = .ok () { p with lastMove := none } ∧
        ∃ cost, p.cost setup = .ok cost ∧ Plan.cost setup { p with lastMove := none } = .ok cost) ∧
      (p.Stuck setup r → ∃ r',
        (Plan.perturb setup everything).run ⟨p, r⟩ = .error .emptyDrawRange ⟨p, r'⟩) := by
  intro p
  have hsetup := Setup.ofDesign_fair hmade
  have hsound : p.Sound (d.blocks.map Block.makeup) :=
    after_sound hsetup (by rw [List.length_map, Setup.ofDesign_design hmade]) commands
      (Setup.ofDesign_sound hmade fun b hb => (hblocks b hb).showsShape) (by simp)
  constructor
  · intro hstuck
    obtain ⟨q, r', hrun, hmoved⟩ := Plan.run_perturb hsetup hsound everything hstuck
    exact ⟨q, r', hrun, hmoved.restore q.tally.raw, Plan.restore_of_none rfl,
      _, Tally.total_eq_ok hsound.norms _, Tally.total_eq_ok hsound.norms _⟩
  · exact Plan.run_perturb_stuck hsound.norms everything

/-- A block that lists one orientation twice. -/
def twice : Block Rat := ⟨"a", .hard 2 3 [.r0, .r0] .r0, 0, 0, 2, 3, false⟩

/-- The block that lists one orientation twice, and one that lists it once. -/
def repeating : Design Rat where
  outlineWidth := 10
  outlineHeight := 10
  blocks := [twice, ⟨"b", .hard 4 1 [.r0] .r0, 0, 0, 4, 1, false⟩]

lemma repeating_wellFormed : ∀ b ∈ repeating.blocks, b.WellFormed := by
  intro b hb
  rw [repeating, List.mem_cons, List.mem_singleton] at hb
  rcases hb with rfl | rfl
  · exact Block.hard_wellFormed (show Block.hard "a" 2 3 [.r0, .r0] .r0 {} = .ok _ by
      with_unfolding_all rfl)
  · exact Block.hard_wellFormed (show Block.hard "b" 4 1 [.r0] .r0 {} = .ok _ by
      with_unfolding_all rfl)

/-- Half of the moves exchange slots of the positive sequence, and half turn a block. -/
def halfTurns : Settings Rat := { shares := ⟨1 / 2, 0, 0, 0, 0⟩ }

lemma repeating_made :
    ∃ setup plan, Setup.ofDesign repeating halfTurns = .ok (setup, plan) ∧
      setup.table = ⟨[(.positiveSwap, 1 / 2), (.rotate, 1)]⟩ ∧
      plan.layout = .ofBlocks repeating.blocks :=
  ⟨_, _, by with_unfolding_all rfl, by with_unfolding_all rfl, rfl⟩

/-- Whether a turn is stuck depends on the draw. -/
theorem perturb_restore_repeating :
    ∃ setup plan, Setup.ofDesign repeating halfTurns = .ok (setup, plan) ∧
      (∃ q r', (Plan.perturb setup false).run ⟨plan, Stream.steady (1 / 4) (by norm_num) 0⟩
          = .ok () ⟨q, r'⟩ ∧ Plan.restore.run q = .ok () { plan with lastMove := none }) ∧
      ∃ r', (Plan.perturb setup false).run ⟨plan, Stream.steady (3 / 4) (by norm_num) 0⟩
        = .error .emptyDrawRange ⟨plan, r'⟩ := by
  let _ := Transcendental.tangent
  obtain ⟨setup, plan, hmade, htable, hlayout⟩ := repeating_made
  refine ⟨setup, plan, hmade, ?_, ?_⟩
  · have hstuck : ¬ plan.Stuck setup (Stream.steady (1 / 4) (by norm_num) 0) := by
      rintro ⟨hpick, -⟩
      rw [htable] at hpick
      exact absurd hpick (by decide +kernel)
    obtain ⟨q, r', hrun, hback, -⟩ := (perturb_restore hmade repeating_wellFormed
      (Stream.steady (1 / 4) (by norm_num) 0) [] false _).1 hstuck
    exact ⟨q, r', hrun, hback⟩
  · have hstuck : plan.Stuck setup (Stream.steady (3 / 4) (by norm_num) 0) := by
      refine ⟨?_, 0, twice, ?_, ?_, ?_⟩
      · rw [htable]
        decide +kernel
      · rw [hlayout]
        rfl
      · rw [hlayout]
        rfl
      · exact ⟨by decide, by decide⟩
    exact (perturb_restore hmade repeating_wellFormed
        (Stream.steady (3 / 4) (by norm_num) 0) [] false
      _).2 hstuck

end Session

end BlockPlan
