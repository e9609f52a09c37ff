import BlockPlan.Proofs.Annealer.Alike
import BlockPlan.Proofs.Annealer.Runs

/-!
# Runs that mirror each other

Runs for setups that are alike calibrate to the same norms, take the same walk through the layouts
and report the same, each in the unit of its weights.

* `Annealer.Alike`, `Outcome.Alike` — what is alike while runs go on, and in the end.
* `walk_mirrors`, **`calibrate_mirrors`** — calibration.
* **`anneal_mirrors`** — a whole run.
* **`afterRuns_alike`** — so it is after any number of runs, failed ones among them.
-/

namespace BlockPlan

open Edit (Mirrors)

variable {f : Rat} {T : Term → Prop} {setup setup' : Setup Rat} {ρ : Type}

/-- Values listed under the names of their terms, which agree on the terms of `T`. -/
def Outcome.Listed (T : Term → Prop) (xs xs' : List (String × Rat)) : Prop :=
  ∃ v v' : PerTerm Rat, v.AgreesOn T v' ∧ xs = Term.all.map (fun t => (t.name, v.get t)) ∧
    xs' = Term.all.map fun t => (t.name, v'.get t)

/-- Two outcomes that report the same, each in the unit of its weights, and agree on the terms of
`T`. -/
structure Outcome.Alike (f : Rat) (T : Term → Prop) (o o' : Outcome Rat) : Prop where
  seed : o'.seed = o.seed
  bestCost : o'.bestCost = o.bestCost * f
  finalCost : o'.finalCost = o.finalCost * f
  initialTemperature : o'.initialTemperature = o.initialTemperature * f
  iterations : o'.iterations = o.iterations
  bestIteration : o'.bestIteration = o.bestIteration
  penalties : Listed T o.penalties o'.penalties
  rawPenalties : Listed T o.rawPenalties o'.rawPenalties
  placements : o'.placements = o.placements
  costs : o'.costs = o.costs.map (· * f)
  temperatures : o'.temperatures = o.temperatures.map (· * f)
  acceptances : o'.acceptances = o.acceptances

/-- Lists of values that agree on all terms are the same. -/
lemma Outcome.Listed.eq {xs xs' : List (String × Rat)} (h : Listed (fun _ => True) xs xs') :
    xs' = xs := by
  obtain ⟨v, v', hv, rfl, rfl⟩ := h
  rw [PerTerm.ext_get fun t => hv t trivial]

/-- Layouts that are alike place their blocks in the same way. -/
lemma Layout.Alike.placed_eq {counts : Prop} {l l' : Layout Rat} (h : Alike counts l l') :
    l'.blocks.map Block.placed = l.blocks.map Block.placed := by
  have hplain : ∀ k : Layout Rat, k.plain.blocks.map Block.placed = k.blocks.map Block.placed := by
    intro k
    rw [plain_blocks, List.map_map]
    rfl
  rw [← hplain l', ← h.1, hplain]

/-- Plans that are alike have outcomes that are. -/
lemma Plan.outcome_alike (h : setup.Alike f T setup') {p p' : Plan Rat} (hp : p.Alike T p')
    {trace trace' : Option (Trace Rat)} (htrace : trace' = trace.map (Trace.scaled f)) :
    ∃ o o', p.outcome setup trace = .ok o ∧ p'.outcome setup' trace' = .ok o' ∧ o.Alike f T o' := by
  have hnormalized : ∀ q : Plan Rat, q.tally.PositiveNorms →
      (Term.all.mapM fun t => do pure (t.name, ← q.tally.normalized t))
        = (.ok (Term.all.map fun t => (t.name,
            (PerTerm.ofFn fun t => q.tally.raw.get t / q.tally.norm.get t).get t))
          : Except (Fault Rat) (List (String × Rat))) := by
    intro q hq
    simp only [Tally.mapM_normalized hq, PerTerm.get_ofFn]
  obtain ⟨cost, hcost⟩ : ∃ cost, p.cost setup = .ok cost := ⟨_, Tally.total_eq_ok hp.tally.norms _⟩
  have hcost' : p'.cost setup' = .ok (cost * f) := by
    rw [cost_alike h hp, hcost]
    rfl
  refine ⟨_, _, bind_eq_ok.mpr ⟨_, hcost, bind_eq_ok.mpr ⟨_, hnormalized p hp.tally.norms, rfl⟩⟩,
    bind_eq_ok.mpr ⟨_, hcost', bind_eq_ok.mpr ⟨_, hnormalized p' hp.tally.norms', rfl⟩⟩, ?_⟩
  have hquotients : (PerTerm.ofFn fun t => p.tally.raw.get t / p.tally.norm.get t).AgreesOn T
      (PerTerm.ofFn fun t => p'.tally.raw.get t / p'.tally.norm.get t) := by
    intro t ht
    rw [PerTerm.get_ofFn, PerTerm.get_ofFn, hp.tally.raw t ht, hp.tally.norm t ht]
  have hseed : setup'.schedule.seed = setup.schedule.seed := by
    rw [h.schedule]
    rfl
  subst htrace
  cases trace with
  | none =>
      exact ⟨congrArg some hseed, rfl, rfl, (zero_mul f).symm, rfl, rfl,
        ⟨_, _, hquotients, rfl, rfl⟩,
        ⟨_, _, hp.tally.raw, rfl, rfl⟩, hp.layout.placed_eq, rfl, rfl, rfl⟩
  | some trace =>
      exact ⟨congrArg some hseed, rfl, rfl, rfl, rfl, rfl, ⟨_, _, hquotients, rfl, rfl⟩,
        ⟨_, _, hp.tally.raw, rfl, rfl⟩, hp.layout.placed_eq, rfl, rfl, rfl⟩

namespace Annealer

/-- Two annealers whose plans agree on the terms of `T`, with the same draws left. -/
structure Alike (f : Rat) (T : Term → Prop) (a a' : Annealer Rat ρ) : Prop where
  run : Annealing.RunLike (Plan.Alike T) a.run a'.run
  temperature : a'.temperature = a.temperature.map (· * f)
  trace : a'.trace = a.trace.map (Trace.scaled f)

lemma Alike.plan {a a' : Annealer Rat ρ} (h : a.Alike f T a') : a.plan.Alike T a'.plan := h.run.1

/-- Annealers that nothing has been done with are alike if their plans have the same layout. -/
lemma start_alike {d d' : Design Rat} {s s' : Settings Rat} {plan plan' : Plan Rat}
    (h : Setup.Made d s setup plan) (h' : Setup.Made d' s' setup' plan')
    (hlayout : plan.layout.Alike (T .boundary) plan'.layout) (draws : ρ) :
    (start plan draws).Alike f T (start plan' draws) := by
  have hplan : plan.Alike T plan' := by
    rw [h.plan_eq, h'.plan_eq]
    exact ⟨hlayout, Tally.Alike.initial, .none⟩
  exact ⟨⟨hplan, rfl⟩, rfl, rfl⟩

section Edits

variable {β β' : Type} {S : β → β' → Prop}

lemma onRun_mirrors {x : Edit Rat (Run Rat (Plan Rat) ρ) β}
    {x' : Edit Rat (Run Rat (Plan Rat) ρ) β'}
    (h : Mirrors (Annealing.RunLike (Plan.Alike T)) S x x') :
    Mirrors (Alike f T) S (onRun x) (onRun x') :=
  h.within (fun _ _ ha => ha.run) fun _ _ _ _ hr ha => ⟨hr, ha.temperature, ha.trace⟩

lemma onDrawn_mirrors {x : Edit Rat (Drawn (Plan Rat) ρ) β} {x' : Edit Rat (Drawn (Plan Rat) ρ) β'}
    (h : Mirrors (Drawn.Like (Plan.Alike T)) S x x') :
    Mirrors (Alike f T) S (onDrawn x) (onDrawn x') :=
  onRun_mirrors (Annealing.onCurrent_mirrors h)

lemma onPlan_mirrors {x : Edit Rat (Plan Rat) β} {x' : Edit Rat (Plan Rat) β'}
    (h : Mirrors (Plan.Alike T) S x x') :
    Mirrors (Alike f T : Annealer Rat ρ → Annealer Rat ρ → Prop) S (onPlan x) (onPlan x') :=
  onDrawn_mirrors h.onState

lemma note_mirrors (e e' : Event Rat) :
    Mirrors (Alike f T : Annealer Rat ρ → Annealer Rat ρ → Prop) Eq (onRun (Annealing.note e))
      (onRun (Annealing.note e')) :=
  onRun_mirrors (Annealing.note_mirrors e e')

end Edits

section Setups

variable (h : setup.Alike f T setup') (hf : 0 < f)

include h

lemma installInitial_mirrors :
    Mirrors (Layout.Alike (T .boundary)) Eq (installInitial setup) (installInitial setup') := by
  have hsame : installInitial setup' = installInitial setup := by
    rw [installInitial, installInitial, h.initial, h.width]
  rw [hsame]
  exact (installInitial_plain setup).of_image _

variable [DrawSource ρ Rat]

include hf

/-- A walk through random moves finds values that agree. -/
lemma walk_mirrors (count : Nat) :
    Mirrors (Drawn.Like (Plan.Alike T) : Drawn (Plan Rat) ρ → Drawn (Plan Rat) ρ → Prop)
      (List.Forall₂ (PerTerm.AgreesOn T)) (walk setup count) (walk setup' count) := by
  induction count with
  | zero => exact Mirrors.pure .nil
  | succ count ih =>
      refine (Plan.perturb_mirrors h hf true).bind_eq fun _ => Mirrors.get.bind fun t t' ht => ?_
      exact ih.bind fun rest rest' hrest => Mirrors.pure (.cons ht.1.tally.raw hrest)

variable [Transcendental Rat]

/-- **Calibrations for setups that are alike mirror each other.** -/
theorem calibrate_mirrors :
    Mirrors (Alike f T : Annealer Rat ρ → Annealer Rat ρ → Prop) Eq (calibrate setup)
      (calibrate setup') := by
  have hevaluate := Plan.evaluate_mirrors h hf true
  refine (onPlan_mirrors (Plan.onLayout_mirrors (installInitial_mirrors h))).bind_eq fun _ => ?_
  refine (onPlan_mirrors (Plan.onLayout_mirrors (Mirrors.modify fun l l' hl => ?_))).bind_eq
    fun _ => ?_
  · exact hl.map fun k => (Layout.plain_pack k).symm
  refine Mirrors.get.bind fun a a' ha => ?_
  have hopening : a'.plan.layout.snapshot = a.plan.layout.snapshot := ha.plan.layout.snapshot_eq
  have htrials : setup'.schedule.trials = setup.schedule.trials := by rw [h.schedule]; rfl
  simp only [hopening, htrials]
  refine (onPlan_mirrors hevaluate).bind_eq fun _ => ?_
  refine (onDrawn_mirrors (walk_mirrors h hf _)).bind fun samples samples' hsamples => ?_
  refine (onPlan_mirrors (Plan.modifyTally_mirrors fun _ _ ht => ht.setNorms hsamples)).bind_eq
    fun _ => ?_
  refine Mirrors.get.bind fun b b' hb => ?_
  rw [hb.plan.tally.costsOf h.weights hsamples]
  refine (Mirrors.ofExcept_map _ _).bind ?_
  rintro costs _ rfl
  have hstart : startTemperature (costs.map (· * f)) setup'.schedule.initialAcceptance
      setup'.schedule.floor
      = (startTemperature costs setup.schedule.initialAcceptance setup.schedule.floor).map
        (· * f) := by
    rw [h.schedule]
    exact startTemperature_mul hf _ _ _
  rw [hstart]
  refine (Mirrors.ofExcept_map _ _).bind ?_
  rintro t _ rfl
  refine Mirrors.bind_eq (Mirrors.modify fun b b' hb => ?_) fun _ => ?_
  · exact ⟨hb.run, rfl, hb.trace⟩
  refine (onPlan_mirrors (Plan.onLayout_mirrors ((Layout.load_plain _ _).of_image _))).bind_eq
    fun _ => ?_
  refine (onPlan_mirrors hevaluate).bind_eq fun _ =>
    (onPlan_mirrors Plan.forget_mirrors).bind_eq fun _ => ?_
  refine (Mirrors.forM_same fun _ => note_mirrors _ _).bind_eq fun _ =>
    Mirrors.get.bind fun c c' hc => ?_
  simp only [Plan.cost_alike h hc.plan]
  refine (Mirrors.ofExcept_map _ _).bind ?_
  rintro cost _ rfl
  exact note_mirrors _ _

/-! ## Runs -/

/-- What is left of a run when its search is over. -/
def conclude (setup : Setup Rat) : Edit Rat (Annealer Rat ρ) (Outcome Rat) := do
  onPlan (Plan.evaluate setup true)
  Edit.ofExcept ((← get).outcome setup)

omit [DrawSource ρ Rat] [Transcendental Rat] in
lemma conclude_mirrors :
    Mirrors (Alike f T : Annealer Rat ρ → Annealer Rat ρ → Prop) (Outcome.Alike f T)
      (conclude setup) (conclude setup') := by
  refine (onPlan_mirrors (Plan.evaluate_mirrors h hf true)).bind_eq fun _ => ?_
  refine Mirrors.get.bind fun c c' hc => ?_
  obtain ⟨o, o', ho, ho', halike⟩ := Plan.outcome_alike h hc.plan hc.trace
  rw [outcome, outcome, ho, ho']
  exact Mirrors.pure halike

lemma search_mirrors (t : Rat) :
    Mirrors (Alike f T : Annealer Rat ρ → Annealer Rat ρ → Prop) (Outcome.Alike f T)
      (search setup t) (search setup' (t * f)) := by
  have hspace := Annealing.run_mirrors hf (Plan.space_mirrors (ρ := ρ) h hf) setup.schedule t
  rw [search, search, h.schedule]
  refine (onRun_mirrors hspace).bind ?_
  rintro trace _ rfl
  refine Mirrors.bind_eq (Mirrors.modify fun b b' hb => ?_) fun _ => conclude_mirrors h hf
  exact ⟨hb.run, hb.temperature, rfl⟩

/-- **Runs for setups that are alike mirror each other.** -/
theorem anneal_mirrors :
    Mirrors (Alike f T : Annealer Rat ρ → Annealer Rat ρ → Prop) (Outcome.Alike f T) (anneal setup)
      (anneal setup') := by
  refine Mirrors.get.bind fun a a' ha => ?_
  have hnone : a.temperature.isNone ↔ a'.temperature.isNone := by
    rw [ha.temperature, Option.isNone_map]
  refine Mirrors.ite hnone (fun _ => (calibrate_mirrors h hf).bind_eq fun _ => ?_) fun _ => ?_
  -- calibrated just now or before, the run goes on alike
  all_goals
    refine Mirrors.get.bind fun b b' hb => ?_
    rw [hb.temperature]
    cases b.temperature with
    | none => exact conclude_mirrors h hf
    | some t => exact search_mirrors h hf t

/-- Where the search of a run begins, the other one does as well. -/
lemma Begins.mirrored {a a' s : Annealer Rat ρ} (ha : a.Alike f T a') (hbegins : Begins setup a s) :
    ∃ s', Begins setup' a' s' ∧ s.Alike f T s' := by
  rcases hbegins with ⟨hsome, rfl⟩ | ⟨hnone, hrun⟩
  · exact ⟨a', Or.inl ⟨by rw [ha.temperature, Option.isSome_map, hsome], rfl⟩, ha⟩
  · obtain ⟨_, s', hrun', -, hs'⟩ := (calibrate_mirrors h hf).run_ok ha hrun
    exact ⟨s', Or.inr ⟨by rw [ha.temperature, hnone]; rfl, hrun'⟩, hs'⟩

/-- **Annealers that are alike stay so with any number of runs**, failed ones among them. -/
theorem afterRuns_alike (count : Nat) {a a' : Annealer Rat ρ} (ha : a.Alike f T a') :
    (a.afterRuns setup count).Alike f T (a'.afterRuns setup' count) := by
  induction count with
  | zero => exact ha
  | succ count ih =>
      rw [afterRuns, afterRuns, Function.iterate_succ_apply', Function.iterate_succ_apply']
      exact (anneal_mirrors h hf).after ih

end Setups

end Annealer

end BlockPlan
