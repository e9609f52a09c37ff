import BlockPlan.Proofs.Annealer.Perturb
import BlockPlan.Proofs.Cooling.Schedule
import BlockPlan.Proofs.Design.Resolved

/-!
# What a setup promises

A setup is made of a design only if the design and the choices beside it pass all checks.  In exact
arithmetic this is enough for the terms to be measured and weighed ever after, and the plan to begin
with is sound when the blocks of the design are well formed.

* `Design.validate_pos`, `Weights.validate_nonneg` — what the checks of a design and of weights
  leave.
* `Setup.Made`, **`Setup.ofDesign_iff`** — what a setup and the plan to begin with are made of.
* **`ofDesign_fair`**, **`ofDesign_sound`** — what holds of a setup and of the plan to begin with.
* `ofDesign_sensible` — the schedule of a setup makes sense.
-/

namespace BlockPlan

lemma Design.validate_pos {d : Design Rat} (h : d.validate = .ok ()) :
    0 < d.outlineWidth ∧ 0 < d.outlineHeight := by
  have hvalid := validate_ok_iff.mp h
  exact ⟨not_le.mp hvalid.width_pos, not_le.mp hvalid.height_pos⟩

lemma Weights.validate_nonneg {w : Weights Rat} (h : w.validate = .ok ()) (t : Term) :
    0 ≤ w.get t := by
  rw [validate] at h
  split at h
  · cases h
  · rename_i hnone
    have hpass := List.find?_eq_none.mp hnone t (Term.mem_all t)
    simpa using hpass

/-- The outline, the weights and the blockages of an objective are those that it was made of. -/
lemma Objective.ofDesign_eq_ok {d : Design Rat} {weights : Weights Rat} {width height : Rat}
    {o : Objective Rat} (h : ofDesign d weights width height = .ok o) :
    o.outlineWidth = d.outlineWidth ∧ o.outlineHeight = d.outlineHeight ∧ o.weights = weights ∧
      o.blockages = d.blockages.map Rect.box := by
  obtain ⟨-, -, -, -, ho⟩ := ofDesign_iff.mp h
  rw [ho]
  exact ⟨rfl, rfl, rfl, rfl⟩

/-- The blocks in their initial sequences: those that are given, or the order in which they are
listed. -/
def Layout.opening (blocks : List (Block Rat)) :
    Option (List Int × List Int) → Except (Fault Rat) (Layout Rat)
  | none => .ok (.ofBlocks blocks)
  | some (positive, negative) => do
    let pair ← SequencePair.ofPermutations (ofBlocks blocks).size positive negative
    pure { ofBlocks blocks with pair := pair }

lemma Layout.opening_eq_ok {blocks : List (Block Rat)} {initial : Option (List Int × List Int)}
    {l : Layout Rat} (h : opening blocks initial = .ok l) :
    l.blocks = blocks ∧ l.Coherent ∧ ∀ sequences, initial = some sequences →
      ∃ q, (SequencePair.ofPermutations blocks.length sequences.1 sequences.2
        : Except (Fault Rat) SequencePair) = .ok q := by
  cases initial with
  | none =>
      cases h
      exact ⟨rfl, SequencePair.coherent_ofSequences (List.Perm.refl _) (List.Perm.refl _), by simp⟩
  | some sequences =>
      obtain ⟨pair, hpair, ⟨⟩⟩ := bind_eq_ok.mp h
      refine ⟨rfl, SequencePair.coherent_of_ofPermutations hpair, ?_⟩
      rintro _ ⟨⟩
      exact ⟨pair, hpair⟩

namespace Setup

/-- What a setup and the plan to begin with are made of. -/
structure Made (d : Design Rat) (s : Settings Rat) (setup : Setup Rat) (plan : Plan Rat) :
    Prop where
  schedule : s.schedule.validate = .ok ()
  weights : s.weights.validate = .ok ()
  table : MoveTable.ofShares s.shares = .ok setup.table
  design : d.validate = .ok ()
  seed : ¬ s.schedule.seed < 0
  objective : Objective.ofDesign d s.weights s.notchWidth s.notchHeight = .ok setup.objective
  layout : Layout.opening d.blocks s.initial = .ok plan.layout
  setup_eq : setup = ⟨d, setup.objective, setup.table, s.schedule, s.initial⟩
  plan_eq : plan = ⟨plan.layout, Tally.initial, none⟩

/-- Making a setup, with the initial layout in one step. -/
lemma ofDesign_eq (d : Design Rat) (s : Settings Rat) :
    ofDesign d s = (do
      s.schedule.validate
      s.weights.validate
      let table ← MoveTable.ofShares s.shares
      d.validate
      if s.schedule.seed < 0 then throw .negativeSeed
      let objective ← Objective.ofDesign d s.weights s.notchWidth s.notchHeight
      let layout ← Layout.opening d.blocks s.initial
      pure (⟨d, objective, table, s.schedule, s.initial⟩, ⟨layout, Tally.initial, none⟩)) := by
  obtain ⟨_, _, _, _, _, initial⟩ := s
  cases initial with
  | none => rfl
  | some sequences => simp only [ofDesign, Layout.opening, bind_assoc, pure_bind]

/-- **What a setup and the plan to begin with are made of.** -/
theorem ofDesign_iff {d : Design Rat} {s : Settings Rat} {setup : Setup Rat} {plan : Plan Rat} :
    ofDesign d s = .ok (setup, plan) ↔ Made d s setup plan := by
  rw [ofDesign_eq]
  constructor
  · intro h
    obtain ⟨⟨⟩, hschedule, h⟩ := bind_eq_ok.mp h
    obtain ⟨⟨⟩, hweights, h⟩ := bind_eq_ok.mp h
    obtain ⟨table, htable, h⟩ := bind_eq_ok.mp h
    obtain ⟨⟨⟩, hdesign, h⟩ := bind_eq_ok.mp h
    split_ifs at h with hseed
    · obtain ⟨_, hthrow, -⟩ := bind_eq_ok.mp h
      cases hthrow
    · obtain ⟨objective, hobjective, h⟩ := bind_eq_ok.mp h
      obtain ⟨layout, hlayout, ⟨⟩⟩ := bind_eq_ok.mp h
      exact ⟨hschedule, hweights, htable, hdesign, hseed, hobjective, hlayout, rfl, rfl⟩
  · rintro ⟨hschedule, hweights, htable, hdesign, hseed, hobjective, hlayout, hsetup, hplan⟩
    rw [hsetup, hplan, hschedule, hweights, htable, hdesign, hobjective, hlayout]
    exact if_neg hseed

variable {d : Design Rat} {settings : Settings Rat} {setup : Setup Rat} {plan : Plan Rat}

/-- What the checks leave of a setup and of the plan to begin with. -/
lemma ofDesign_eq_ok (h : ofDesign d settings = .ok (setup, plan)) :
    settings.schedule.validate = .ok () ∧ setup.schedule = settings.schedule ∧
      settings.weights.validate = .ok () ∧ d.validate = .ok () ∧
      Objective.ofDesign d settings.weights settings.notchWidth settings.notchHeight
        = .ok setup.objective ∧ setup.design = d ∧
      (∀ sequences, setup.initial = some sequences →
        ∃ q, (SequencePair.ofPermutations d.blocks.length sequences.1 sequences.2
          : Except (Fault Rat) SequencePair) = .ok q) ∧
      plan.layout.blocks = d.blocks ∧ plan.layout.Coherent ∧ plan.tally = Tally.initial ∧
      plan.lastMove = none := by
  obtain ⟨hschedule, hweights, -, hdesign, -, hobjective, hlayout, hsetup, hplan⟩ :=
    ofDesign_iff.mp h
  have hinitial : setup.initial = settings.initial := by rw [hsetup]
  rw [hinitial, hplan]
  refine ⟨hschedule, by rw [hsetup], hweights, hdesign, hobjective, by rw [hsetup], ?_⟩
  obtain ⟨hblocks, hcoherent, hpermutations⟩ := Layout.opening_eq_ok hlayout
  exact ⟨hpermutations, hblocks, hcoherent, rfl, rfl⟩

/-- The outline of an objective has an area. -/
lemma ofDesign_outline (h : ofDesign d settings = .ok (setup, plan)) :
    0 < setup.objective.outlineWidth ∧ 0 < setup.objective.outlineHeight := by
  obtain ⟨-, -, -, hdesign, hobjective, -⟩ := ofDesign_eq_ok h
  obtain ⟨hwidth, hheight, -⟩ := Objective.ofDesign_eq_ok hobjective
  rw [hwidth, hheight]
  exact Design.validate_pos hdesign

/-- **A setup that is made of a design can be measured and weighed with.** -/
theorem ofDesign_fair (h : ofDesign d settings = .ok (setup, plan)) : setup.Fair := by
  obtain ⟨hschedule, hkept, hweights, -, hobjective, hsame, hinitial, -⟩ := ofDesign_eq_ok h
  obtain ⟨-, -, hgiven, -⟩ := Objective.ofDesign_eq_ok hobjective
  obtain ⟨hwidth, hheight⟩ := ofDesign_outline h
  refine ⟨(mul_pos hwidth hheight).ne', ?_, ?_, ?_⟩
  · rw [hgiven]
    exact Weights.validate_nonneg hweights
  · rw [hsame]
    exact hinitial
  · rw [hkept]
    exact (Schedule.validate_ok_iff.mp hschedule).acceptance_pos

lemma ofDesign_sensible (h : ofDesign d settings = .ok (setup, plan)) :
    setup.schedule.Sensible := by
  obtain ⟨hschedule, hkept, -⟩ := ofDesign_eq_ok h
  rw [hkept]
  exact Schedule.validate_ok_iff.mp hschedule

lemma ofDesign_design (h : ofDesign d settings = .ok (setup, plan)) : setup.design = d :=
  (ofDesign_eq_ok h).2.2.2.2.2.1

/-- **The plan to begin with is sound.** -/
theorem ofDesign_sound (h : ofDesign d settings = .ok (setup, plan))
    (hblocks : ∀ b ∈ d.blocks, b.ShowsShape) : plan.Sound (d.blocks.map Block.makeup) := by
  obtain ⟨-, -, -, -, -, -, -, hsame, hcoherent, htally, hlast⟩ := ofDesign_eq_ok h
  rw [← hsame] at hblocks
  have hlayout : plan.layout.Sound (d.blocks.map Block.makeup) :=
    ⟨hcoherent, hblocks, by rw [hsame]⟩
  refine ⟨hlayout, ?_, by simp [hlast]⟩
  rw [htally]
  exact Tally.positiveNorms_initial

end Setup

end BlockPlan
