import BlockPlan.Proofs.Annealer.Mirror

/-!
# Costs in another unit

Multiplying all weights by a factor above zero, together with the floor of the temperatures, changes
the unit of the costs and nothing else: every move is the same, the same moves are accepted, and the
runs end with the same blocks in the same places.

* `Settings.scaled`, `Setup.scaled`, `Outcome.scaled` — settings, setups and outcomes in another
  unit.
* `Setup.ofDesign_scaled` — the setup of scaled settings is the scaled setup.
* **`Plan.perturb_scaled`** — a random move does not depend on the unit at all.
* `Annealer.Rescaled` — two annealers that differ by the unit alone.
* **`Annealer.runs_scaled`** — so it is for every run of a row of runs, and for every trial of its
  search.
-/

namespace BlockPlan

open Edit (Mirrors Mirrored)

variable {f : Rat}

/-! ## Settings and setups -/

/-- Settings with weights in another unit. -/
def Settings.scaled (f : Rat) (s : Settings Rat) : Settings Rat :=
  { s with weights := s.weights.scaled f, schedule := s.schedule.scaled f }

/-- A setup with weights in another unit. -/
def Setup.scaled (f : Rat) (s : Setup Rat) : Setup Rat :=
  { s with
    objective := { s.objective with weights := s.objective.weights.scaled f }
    schedule := s.schedule.scaled f }

/-- An outcome in another unit. -/
def Outcome.scaled (f : Rat) (o : Outcome Rat) : Outcome Rat :=
  { o with
    bestCost := o.bestCost * f
    finalCost := o.finalCost * f
    initialTemperature := o.initialTemperature * f
    costs := o.costs.map (· * f)
    temperatures := o.temperatures.map (· * f) }

lemma Weights.get_scaled (w : Weights Rat) (f : Rat) (t : Term) :
    (w.scaled f).get t = w.get t * f :=
  PerTerm.get_map _ _ _

section Checks

variable (hf : 0 < f)

include hf

lemma Schedule.validate_scaled {s : Schedule Rat} (h : s.validate = .ok ()) :
    (s.scaled f).validate = .ok () := by
  rw [Schedule.validate_ok_iff] at h ⊢
  exact ⟨h.acceptance_pos, h.acceptance_le, h.levels, h.trials, h.fastLevels, h.rate,
    mul_pos h.floor hf, h.reportInterval⟩

lemma Weights.validate_scaled {w : Weights Rat} (h : w.validate = .ok ()) :
    (w.scaled f).validate = .ok () := by
  have hnone : Term.all.find? (fun t => decide ((w.scaled f).get t < 0)) = none := by
    refine List.find?_eq_none.mpr fun t _ => ?_
    simpa only [decide_eq_true_eq, not_lt, get_scaled] using mul_nonneg
      (Weights.validate_nonneg h t) hf.le
  rw [Weights.validate, hnone]

/-- The setup of scaled settings is the scaled setup, with the same plan to begin with. -/
lemma Setup.ofDesign_scaled {d : Design Rat} {settings : Settings Rat} {setup : Setup Rat}
    {plan : Plan Rat} (h : Setup.ofDesign d settings = .ok (setup, plan)) :
    Setup.ofDesign d (settings.scaled f) = .ok (setup.scaled f, plan) := by
  obtain ⟨hschedule, hweights, htable, hdesign, hseed, hobjective, hlayout, hsetup, hplan⟩ :=
    Setup.ofDesign_iff.mp h
  obtain ⟨hthreshold, -, hguides, hfences, ho⟩ := Objective.ofDesign_iff.mp hobjective
  have hscaled : Objective.ofDesign d (settings.weights.scaled f) settings.notchWidth
      settings.notchHeight
      = .ok (setup.scaled f).objective := by
    refine Objective.ofDesign_iff.mpr
      ⟨hthreshold, Weights.validate_scaled hf hweights, hguides, hfences, ?_⟩
    rw [Setup.scaled, ho]
  refine Setup.ofDesign_iff.mpr ⟨Schedule.validate_scaled hf hschedule,
    Weights.validate_scaled hf hweights,
    htable, hdesign, hseed, hscaled, hlayout, ?_, hplan⟩
  rw [Setup.scaled, hsetup]
  rfl

end Checks

/-! ## Costs and moves -/

lemma Objective.measure_scaled (o : Objective Rat) (w : Weights Rat) (l : Layout Rat) (t : Term) :
    { o with weights := w }.measure l t = o.measure l t := by
  cases t <;> rfl

lemma Tally.costOfTerm_scaled (tally : Tally Rat) (w : Weights Rat) (t : Term) :
    tally.costOfTerm (w.scaled f) t = (tally.costOfTerm w t).map (· * f) := by
  rw [costOfTerm, costOfTerm, Weights.get_scaled]
  cases tally.normalized t with
  | error e => rfl
  | ok v => exact congrArg Except.ok (mul_right_comm _ _ _)

/-- Costs have the unit of the weights, also when they cannot be worked out. -/
lemma Tally.total_scaled (tally : Tally Rat) (w : Weights Rat) :
    tally.total (w.scaled f) = (tally.total w).map (· * f) := by
  have hterms : ∀ terms : List Term, terms.mapM (tally.costOfTerm (w.scaled f))
      = (terms.mapM (tally.costOfTerm w)).map (List.map (· * f)) := by
    intro terms
    induction terms with
    | nil => rfl
    | cons t terms ih =>
        rw [List.mapM_cons, List.mapM_cons, costOfTerm_scaled, ih]
        cases tally.costOfTerm w t with
        | error e => rfl
        | ok v => cases terms.mapM (tally.costOfTerm w) <;> rfl
  rw [total, total, hterms]
  cases Term.all.mapM (tally.costOfTerm w) with
  | error e => rfl
  | ok costs =>
      refine congrArg Except.ok ?_
      rw [Scalar.sum_eq, Scalar.sum_eq, List.sum_map_mul_right, List.map_id']

namespace Plan

variable (hf : 0 < f) (setup : Setup Rat)

lemma cost_scaled (p : Plan Rat) : p.cost (setup.scaled f) = (p.cost setup).map (· * f) :=
  p.tally.total_scaled _

include hf

lemma enabled_scaled (t : Term) :
    (setup.scaled f).objective.enabled t = setup.objective.enabled t :=
  enabled_mul hf (Weights.get_scaled _ f t)

lemma evaluate_scaled (everything : Bool) :
    evaluate (setup.scaled f) everything = evaluate setup everything := by
  have hmeasure : Tally.measureTerm (setup.scaled f).objective
      = Tally.measureTerm setup.objective := by
    funext l t
    rw [Tally.measureTerm, Tally.measureTerm, Setup.scaled, Objective.measure_scaled]
  simp only [evaluate, Tally.evaluate, enabled_scaled hf, hmeasure]

lemma outlineDominates_scaled (p : Plan Rat) :
    p.outlineDominates (setup.scaled f) = p.outlineDominates setup :=
  outlineDominates_mul hf (enabled_scaled hf setup _) fun _ =>
    ⟨rfl, p.tally.costOfTerm_scaled _ _, p.cost_scaled setup⟩

/-- **A random move does not depend on the unit of the costs.** -/
theorem perturb_scaled {ρ : Type} [DrawSource ρ Rat] (everything : Bool) :
    (perturb (setup.scaled f) everything : Edit Rat (Drawn (Plan Rat) ρ) Unit)
      = perturb setup everything := by
  simp only [perturb, outlineDominates_scaled hf, evaluate_scaled hf]
  rfl

/-- In another unit the plans are a search space whose costs differ by the unit alone. -/
lemma space_scaled {ρ : Type} [DrawSource ρ Rat] :
    (space setup : SearchSpace Rat (Plan Rat) ρ (Kept Rat)).Mirrors f Eq Eq
      (space (setup.scaled f)) where
  perturb := by
    have hsame := Mirrors.refl (perturb setup false : Edit Rat (Drawn (Plan Rat) ρ) Unit)
    rw [space, space, perturb_scaled hf]
    exact hsame.congr fun _ _ => Drawn.like_eq_iff.symm
  restore := Mirrors.refl _
  cost := by
    rintro p _ rfl
    exact p.cost_scaled setup
  keep := by
    rintro p _ rfl
    rfl
  load := by
    rintro k _ rfl
    exact Mirrors.refl _

end Plan

/-! ## Runs -/

namespace Annealer

variable {ρ : Type}

/-- Two annealers with the same plan and the same draws left, whose temperatures and courses differ
by the unit. -/
structure Rescaled (f : Rat) (a a' : Annealer Rat ρ) : Prop where
  current : a'.run.current = a.run.current
  temperature : a'.temperature = a.temperature.map (· * f)
  trace : a'.trace = a.trace.map (Trace.scaled f)

/-- All terms count in another unit as well. -/
lemma alike_scaled (hf : 0 < f) {d : Design Rat} {settings : Settings Rat} {setup : Setup Rat}
    {plan : Plan Rat} (hmade : Setup.ofDesign d settings = .ok (setup, plan)) :
    setup.Alike f (fun _ => True) (setup.scaled f) where
  fair := Setup.ofDesign_fair hmade
  fair' := Setup.ofDesign_fair (Setup.ofDesign_scaled hf hmade)
  table := rfl
  schedule := rfl
  initial := rfl
  width := rfl
  outline := ⟨rfl, rfl⟩
  weights := ⟨setup.objective.weights.get_scaled f, fun t ht => absurd trivial ht⟩
  value := by
    rintro l _ ⟨-, hsame⟩ t -
    obtain rfl := hsame trivial
    rw [Objective.value, Objective.value, Setup.scaled, Objective.measure_scaled]

lemma Alike.rescaled {a a' : Annealer Rat ρ} (h : a.Alike f (fun _ => True) a') :
    a.Rescaled f a' where
  current := by
    obtain ⟨hplan, hdraws⟩ := h.run
    exact (Drawn.like_eq_iff.mp ⟨hplan.eq.symm, hdraws⟩).symm
  temperature := h.temperature
  trace := h.trace

end Annealer

/-- Outcomes that agree on all terms differ by the unit alone. -/
lemma Outcome.Alike.eq {o o' : Outcome Rat} (h : o.Alike f (fun _ => True) o') :
    o' = o.scaled f := by
  cases o'
  simp only [scaled, Outcome.mk.injEq]
  exact ⟨h.seed, h.bestCost, h.finalCost, h.initialTemperature, h.iterations, h.bestIteration,
    h.penalties.eq, h.rawPenalties.eq, h.placements, h.costs, h.temperatures, h.acceptances⟩

namespace Annealer

section Runs

open Annealing (Course Visit)

variable {ρ : Type} [DrawSource ρ Rat] [Transcendental Rat]

/-- **In another unit every run is the same, but for this unit**: from the same draws it makes the
same moves, accepts the same ones and leaves the same plan and the same draws behind, and
temperatures and costs are multiplied by the factor.  So it is after any number of runs, and when a
run fails, both do with the same fault; none fails if every block lists every orientation once. -/
theorem runs_scaled (hf : 0 < f) {d : Design Rat} {settings : Settings Rat} {setup : Setup Rat}
    {plan : Plan Rat} (hmade : Setup.ofDesign d settings = .ok (setup, plan)) :
    Setup.ofDesign d (settings.scaled f) = .ok (setup.scaled f, plan) ∧
    (∀ everything, (Plan.perturb (setup.scaled f) everything : Edit Rat (Drawn (Plan Rat) ρ) Unit)
      = Plan.perturb setup everything) ∧
    ∀ (draws : ρ) (count : Nat) (a a' : Annealer Rat ρ),
      a = (start plan draws).afterRuns setup count →
      a' = (start plan draws).afterRuns (setup.scaled f) count →
      a.Rescaled f a' ∧
      Mirrored (Rescaled f) (fun o o' => o' = o.scaled f) ((anneal setup).run a)
        ((anneal (setup.scaled f)).run a') ∧
      (LawfulDraws ρ Rat → (∀ b ∈ d.blocks, b.WellFormed ∧ b.Varied) →
        (∀ q : Rat, 0 < q → q < 1 → Transcendental.log q ≠ 0) →
        ∃ o b, (anneal setup).run a = .ok o b) ∧
      ∀ s, Begins setup a s → ∃ s', Begins (setup.scaled f) a' s' ∧ s.Rescaled f s' ∧
        ∀ t first visits last u,
          Course (Plan.space setup) setup.schedule t first s.run.current visits last u →
          Course (Plan.space (setup.scaled f)) (setup.scaled f).schedule (t * f) (first.scaled f)
            s'.run.current (visits.map (Visit.scaled f)) (last.scaled f) u := by
  have halike := alike_scaled hf hmade
  refine ⟨Setup.ofDesign_scaled hf hmade, fun _ => Plan.perturb_scaled hf setup _, ?_⟩
  rintro draws count a a' rfl rfl
  have hstart := start_alike (f := f) (T := fun _ => True) (Setup.ofDesign_iff.mp hmade)
    (Setup.ofDesign_iff.mp hmade) ⟨rfl, fun _ => rfl⟩ draws
  have ha := afterRuns_alike halike hf count hstart
  refine ⟨ha.rescaled, ?_, ?_, ?_⟩
  · exact (anneal_mirrors halike hf _ _ ha).imp (fun _ _ h => h.rescaled) fun _ _ h => h.eq
  · intro _ hblocks hlog
    have hwellFormed : ∀ b ∈ d.blocks, b.WellFormed := fun b hb => (hblocks b hb).1
    have hvaried : ∀ b ∈ d.blocks, b.Varied := fun b hb => (hblocks b hb).2
    exact anneal_succeeds hmade hwellFormed hvaried hlog draws count
  · intro s hbegins
    obtain ⟨s', hbegins', hs⟩ := hbegins.mirrored halike hf ha
    refine ⟨s', hbegins', hs.rescaled, ?_⟩
    intro t first visits last u hcourse
    rw [hs.rescaled.current]
    exact hcourse.scaled hf (Plan.space_scaled hf setup)

end Runs

/-- A second run with weights that are twice as large. -/
theorem runs_scaled_turning :
    ∃ setup plan, Setup.ofDesign Session.turning Session.mixed = .ok (setup, plan) ∧
      Setup.ofDesign Session.turning (Session.mixed.scaled 2) = .ok (setup.scaled 2, plan) ∧
      let _ := Transcendental.tangent
      ∃ a a' b b' : Annealer Rat Stream, ∃ o,
        a = (start plan (Stream.steady (1 / 2) (by norm_num) 0)).afterRuns setup 1 ∧
        a' = (start plan (Stream.steady (1 / 2) (by norm_num) 0)).afterRuns (setup.scaled 2) 1 ∧
        a.Rescaled 2 a' ∧ (anneal setup).run a = .ok o b ∧
        (anneal (setup.scaled 2)).run a' = .ok (o.scaled 2) b' ∧ b.Rescaled 2 b' := by
  obtain ⟨setup, plan, hmade⟩ :
      ∃ setup plan, Setup.ofDesign Session.turning Session.mixed = .ok (setup, plan) :=
    ⟨_, _, by with_unfolding_all rfl⟩
  let _ := Transcendental.tangent
  obtain ⟨hscaled, -, hruns⟩ := runs_scaled (ρ := Stream) (f := 2) two_pos hmade
  refine ⟨setup, plan, hmade, hscaled, ?_⟩
  obtain ⟨ha, hmirrored, hok, -⟩ := hruns (Stream.steady (1 / 2) (by norm_num) 0) 1 _ _ rfl rfl
  obtain ⟨o, b, hrun⟩ := hok inferInstance
    (fun b hb => ⟨Session.turning_wellFormed b hb, Session.turning_varied b hb⟩)
    fun q _ hq => sub_ne_zero.mpr hq.ne
  rw [hrun] at hmirrored
  obtain ⟨_, b', hrun', rfl, hb⟩ := hmirrored.of_ok
  exact ⟨_, _, b, b', o, rfl, rfl, ha, hrun, hrun', hb⟩

end Annealer

end BlockPlan
