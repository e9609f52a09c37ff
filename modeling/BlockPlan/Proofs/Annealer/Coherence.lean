import BlockPlan.Proofs.Annealer.Session
import BlockPlan.Proofs.Draws.Stream
import BlockPlan.Proofs.Packing.Tightest

/-!
# Plans stay in step with themselves

A plan keeps much that follows from something else: the slots from the sequences, the sides of the
blocks from their shapes, the positions from sequences and sides, and the raw values from the
layout.  Once an annealer has been calibrated, all of this agrees after any commands, whatever the
draws.

* `Plan.Coherent` — what it means that a plan agrees with itself.
* `Plan.Settled.coherent` — a settled plan of well-formed blocks does.
* **`Session.after_coherent`** — so does the plan of every session with a calibrated annealer.
-/

namespace BlockPlan

namespace Plan

variable {setup : Setup Rat} {p : Plan Rat}

/-- A plan that agrees with itself: whatever it keeps is what it would be if it were worked out
anew. -/
structure Coherent (setup : Setup Rat) (p : Plan Rat) : Prop where
  /-- Both sequences are orders of the blocks. -/
  sequences : p.layout.pair.positive.Perm (List.range p.layout.size) ∧
    p.layout.pair.negative.Perm (List.range p.layout.size)
  /-- Both lists of slots are the inverses of the sequences. -/
  slots : (p.layout.pair.positiveSlot.length = p.layout.size ∧ ∀ k i : Nat,
      p.layout.pair.positive[k]? = some i ↔ p.layout.pair.positiveSlot[i]? = some (k : Int)) ∧
    p.layout.pair.negativeSlot.length = p.layout.size ∧ ∀ k i : Nat,
      p.layout.pair.negative[k]? = some i ↔ p.layout.pair.negativeSlot[i]? = some (k : Int)
  /-- The blocks are those of the design, each with the sides of a shape that it lists. -/
  shapes : p.layout.blocks.map Block.makeup = setup.design.blocks.map Block.makeup ∧
    ∀ b ∈ p.layout.blocks, b.ShowsShape
  /-- Packing would leave every block where it is. -/
  packed : p.layout.pack = p.layout
  nonneg : ∀ b ∈ p.layout.blocks, 0 ≤ b.x ∧ 0 ≤ b.y
  apart : ∀ (i j : Nat) (b c : Block Rat), i ≠ j → p.layout.blocks[i]? = some b →
    p.layout.blocks[j]? = some c → Layout.Apart b c ∧ b.box.overlap c.box = 0
  /-- Measuring all terms would change no term with a weight, and not the cost. -/
  measured : ∃ q cost, (evaluate setup true).run p = .ok () q ∧ q.layout = p.layout ∧
    (∀ t, 0 < setup.objective.weights.get t → p.tally.raw.get t = q.tally.raw.get t) ∧
    p.cost setup = .ok cost ∧ q.cost setup = .ok cost

/-- Measuring a settled plan anew changes nothing that counts. -/
lemma Settled.measured_again {known : Layout.Makeups Rat} (hsetup : setup.Fair)
    (h : p.Settled setup known) :
    ∃ q cost, (evaluate setup true).run p = .ok () q ∧ q.layout = p.layout ∧
      (∀ t, 0 < setup.objective.weights.get t → p.tally.raw.get t = q.tally.raw.get t) ∧
      p.cost setup = .ok cost ∧ q.cost setup = .ok cost := by
  have hcost := Tally.total_eq_ok h.sound.norms setup.objective.weights
  refine ⟨_, _, run_evaluate hsetup true p, rfl, fun t ht => ?_, hcost, ?_⟩
  · rw [h.measured t (decide_eq_true ht)]
    simp only [Tally.measured, PerTerm.get_ofFn, Bool.true_or, if_true]
  · rw [← h.cost_eq hsetup]
    exact hcost

/-- **A settled plan of well-formed blocks agrees with itself.** -/
theorem Settled.coherent (hsetup : setup.Fair) (hblocks : ∀ b ∈ setup.design.blocks, b.WellFormed)
    (h : p.Settled setup (setup.design.blocks.map Block.makeup)) : p.Coherent setup := by
  have hpair := h.sound.layout.coherent
  have hsides : ∀ b ∈ p.layout.blocks, 0 ≤ b.width ∧ 0 ≤ b.height := by
    intro b hb
    have hpos := (h.sound.layout.wellFormed hblocks b hb).sides
    exact ⟨hpos.1.le, hpos.2.le⟩
  have hrespects := Layout.pack_respects hpair hsides
  rw [h.packed] at hrespects
  constructor
  case sequences => exact ⟨hpair.positive.perm, hpair.negative.perm⟩
  case slots =>
    refine ⟨⟨hpair.positive.length_slots, ?_⟩, hpair.negative.length_slots, ?_⟩
    · intro k i
      exact hpair.positive.slot_iff
    · intro k i
      exact hpair.negative.slot_iff
  case shapes => exact ⟨h.sound.layout.makeups, h.sound.layout.showsShape⟩
  case packed => exact h.packed
  case nonneg =>
    intro b hb
    exact ⟨hrespects.x_nonneg b hb, hrespects.y_nonneg b hb⟩
  case apart =>
    intro i j b c hne hb hc
    have hapart := hrespects.apart hpair rfl hne hb hc
    exact ⟨hapart, hapart.overlap_eq_zero⟩
  case measured => exact h.measured_again hsetup

end Plan

namespace Session

/-- **Once an annealer has been calibrated, its plan agrees with itself after any commands.**  Moves
may fail and searches may be broken off; what is loaded must have been kept since the calibration.
-/
theorem after_coherent {ρ : Type} [DrawSource ρ Rat] [LawfulDraws ρ Rat] [Transcendental Rat]
    {d : Design Rat} {settings : Settings Rat} {setup : Setup Rat} {plan : Plan Rat}
    (hmade : Setup.ofDesign d settings = .ok (setup, plan))
    (hblocks : ∀ b ∈ d.blocks, b.WellFormed) (draws : ρ) (before : List Command)
    {a : Annealer Rat ρ}
    (hcalibrated : (Annealer.calibrate setup).run
      (after setup before ⟨Annealer.start plan draws, []⟩).annealer = .ok () a)
    {commands : List Command} (hcommands : Command.calibrate ∉ commands) :
    (after setup commands ⟨a, []⟩).annealer.plan.Coherent setup := by
  have hsetup := Setup.ofDesign_fair hmade
  have hdesign := Setup.ofDesign_design hmade
  have hsize : (d.blocks.map Block.makeup).length = setup.design.blocks.length := by
    rw [List.length_map, hdesign]
  have hsound := after_sound hsetup hsize before (s := ⟨Annealer.start plan draws, []⟩)
    (Setup.ofDesign_sound hmade fun b hb => (hblocks b hb).showsShape) (by simp)
  -- calibrating settles the plan, and the commands keep it steady from then on
  have hsettled := Annealer.calibrate_leads (B := True) hsetup hsize (fun _ _ _ _ => trivial)
    (fun _ _ _ => trivial) _ hsound
  rw [hcalibrated] at hsettled
  obtain ⟨⟨hplan, hlast⟩, htemperature⟩ := hsettled
  have hsteady := after_steady hsetup hcommands (s := ⟨a, []⟩) ⟨hplan.steady hlast, htemperature⟩
    (by simp)
  rw [← hdesign] at hblocks
  refine Plan.Settled.coherent hsetup hblocks ?_
  rw [hdesign]
  exact hsteady.settled

/-- A block that can be turned, and one with two candidates. -/
def turning : Design Rat where
  outlineWidth := 10
  outlineHeight := 10
  blocks := [⟨"a", .hard 2 3 [.r0, .r90] .r0, 0, 0, 2, 3, false⟩,
    ⟨"b", .soft [(4, 1), (2, 2)] 0, 0, 0, 4, 1, false⟩]

lemma turning_wellFormed : ∀ b ∈ turning.blocks, b.WellFormed := by
  intro b hb
  rw [turning, List.mem_cons, List.mem_singleton] at hb
  rcases hb with rfl | rfl
  · exact Block.hard_wellFormed (show Block.hard "a" 2 3 [.r0, .r90] .r0 {} = .ok _ by
      with_unfolding_all rfl)
  · exact Block.soft_wellFormed (show Block.soft "b" [(4, 1), (2, 2)] 0 {} = .ok _ by
      with_unfolding_all rfl)

lemma turning_varied : ∀ b ∈ turning.blocks, b.Varied := by
  intro b hb
  rw [turning, List.mem_cons, List.mem_singleton] at hb
  rcases hb with rfl | rfl
  · exact (by decide : [Orientation.r0, Orientation.r90].Nodup)
  · exact trivial

/-- A third of the moves each exchange slots, turn a block or take another candidate. -/
def mixed : Settings Rat := { shares := ⟨1 / 3, 0, 0, 0, 1 / 3⟩ }

/-- Moving, searching and going back to what was kept. -/
theorem after_coherent_turning :
    ∃ setup plan, Setup.ofDesign turning mixed = .ok (setup, plan) ∧
      let _ := Transcendental.tangent
      ∃ a : Annealer Rat Stream,
        (Annealer.calibrate setup).run (Annealer.start plan (Stream.steady (1 / 2) (by norm_num) 0))
          = .ok () a ∧
        (after setup [.perturb, .keep, .run, .load 0, .perturb, .restore]
          ⟨a, []⟩).annealer.plan.Coherent setup := by
  obtain ⟨setup, plan, hmade⟩ : ∃ setup plan, Setup.ofDesign turning mixed = .ok (setup, plan) :=
    ⟨_, _, by with_unfolding_all rfl⟩
  refine ⟨setup, plan, hmade, ?_⟩
  let _ := Transcendental.tangent
  have hsize : (turning.blocks.map Block.makeup).length = setup.design.blocks.length := by
    rw [Setup.ofDesign_design hmade, List.length_map]
  have hlog : ∀ q : Rat, 0 < q → q < 1 → Transcendental.log q ≠ 0 :=
    fun q _ hq => sub_ne_zero.mpr hq.ne
  obtain ⟨a, hrun, -⟩ := Annealer.run_calibrate (Setup.ofDesign_fair hmade) hsize hlog
    (fun p r hp => hp.not_stuck turning_varied r)
    (a := Annealer.start plan (Stream.steady (1 / 2) (by norm_num) 0))
    (Setup.ofDesign_sound hmade fun b hb => (turning_wellFormed b hb).showsShape)
  exact ⟨a, hrun, after_coherent hmade turning_wellFormed _ [] hrun (by decide)⟩

end Session

end BlockPlan
