import BlockPlan.Proofs.Annealer.Coherence
import BlockPlan.Proofs.Search.Best

/-!
# Runs, one after another

A run reports the layout that it leaves behind: the best one of its search, measured anew.  The next
run starts from there, so that no run ends worse than the one before it.

* `search`, `run_anneal_calibrated` — what is left of a run when the temperature is known.
* `Reported` — what a run reports, and of what.
* **`search_poised`**, **`anneal_reported`** — what a run reports is the layout that it leaves
  behind.
* `Primed`, **`anneal_primed`** — the same for layouts of a kind, packed or not.
* `Ready`, `afterRuns_ready` — what runs keep, even when they fail.
* `anneal_succeeds` — runs of blocks that can be turned do not fail.
* **`runs_reported`** — so it is for every run of a row of runs, and no run ends worse than the one
  before.
-/

namespace BlockPlan

variable {ρ : Type} [DrawSource ρ Rat] [LawfulDraws ρ Rat] {setup : Setup Rat}
  {known : Layout.Makeups Rat}

namespace Plan

omit [DrawSource ρ Rat] [LawfulDraws ρ Rat] in
/-- A plan that can be weighed has an outcome. -/
lemma outcome_eq_ok {p : Plan Rat} (h : p.tally.PositiveNorms) {cost : Rat}
    (hcost : p.cost setup = .ok cost) (trace : Trace Rat) :
    ∃ o, p.outcome setup (some trace) = .ok o ∧ o.bestCost = trace.bestCost ∧ o.finalCost = cost ∧
      o.rawPenalties = (Term.all.map fun t => (t.name, p.tally.raw.get t)) ∧
      o.placements = p.layout.blocks.map Block.placed ∧ o.costs = trace.costs := by
  refine ⟨_, bind_eq_ok.mpr ⟨cost, hcost, bind_eq_ok.mpr ⟨_, Tally.mapM_normalized h, rfl⟩⟩, ?_⟩
  exact ⟨rfl, rfl, rfl, rfl, rfl⟩

end Plan

namespace Annealer

section Runs

variable [Transcendental Rat] {a b : Annealer Rat ρ} {o : Outcome Rat} {t : Rat}

/-! ## The search of a run -/

/-- What is left of a run when the temperature is known. -/
def search (setup : Setup Rat) (t : Rat) : Edit Rat (Annealer Rat ρ) (Outcome Rat) := do
  let trace ← onRun (Annealing.run (Plan.space setup) setup.schedule t)
  modify fun a => { a with trace := some trace }
  onPlan (Plan.evaluate setup true)
  Edit.ofExcept ((← get).outcome setup)

omit [LawfulDraws ρ Rat] in
lemma run_anneal_known (h : a.temperature = some t) :
    (anneal setup).run a = (search setup t).run a := by
  simp only [anneal, search, EStateM.run_bind, EStateM.run_get, h, Option.isNone_some,
    Bool.false_eq_true, if_false]

omit [LawfulDraws ρ Rat] in
/-- A run that has calibrated goes on like any other one. -/
lemma run_anneal_calibrated (h : a.temperature = none) (hrun : (calibrate setup).run a = .ok () b)
    (hb : b.temperature = some t) : (anneal setup).run a = (anneal setup).run b := by
  rw [run_anneal_known hb]
  simp only [anneal, search, EStateM.run_bind, EStateM.run_get, h, Option.isNone_none,
    if_true, hrun, hb]

omit [LawfulDraws ρ Rat] in
lemma run_anneal_error (h : a.temperature = none) {e : Fault Rat}
    (hrun : (calibrate setup).run a = .error e b) : (anneal setup).run a = .error e b := by
  simp only [anneal, EStateM.run_bind, EStateM.run_get, h, Option.isNone_none, if_true, hrun]

/-- What a run reports that has begun its search with the plan of `s` and has left `b` behind. -/
structure Reported (setup : Setup Rat) (s b : Annealer Rat ρ) (o : Outcome Rat) : Prop where
  /-- The plan that is left behind has the best cost. -/
  final : o.finalCost = o.bestCost ∧ b.plan.cost setup = .ok o.bestCost
  placements : o.placements = b.plan.layout.blocks.map Block.placed
  /-- The terms are those of the layout that is left behind. -/
  raw : List.Forall₂ (fun term e => e.1 = term.name ∧
    setup.objective.measure b.plan.layout term = .ok e.2) Term.all o.rawPenalties
  /-- The search has begun with a cost that is not lower. -/
  start : ∃ cost, s.plan.cost setup = .ok cost ∧ o.bestCost ≤ cost
  costs : ∀ c ∈ o.costs, o.bestCost ≤ c

/-- **A search of poised plans that succeeds reports the layout that it leaves behind.** -/
theorem search_poised (hsetup : setup.Fair) (hschedule : setup.schedule.Sensible)
    {L : Layout Rat → Prop} (hkind : Plan.MovesKeep L setup known) {B : Prop}
    (hB : ∀ (p : Plan Rat) (r : ρ), p.Sound known → p.Stuck setup r → B) (t : Rat)
    (ha : a.plan.Poised L setup known) :
    Edit.Leads (fun s => s = a) (search setup t)
      (fun o b => Reported setup a b o ∧ b.plan.Poised L setup known ∧
        b.temperature = a.temperature)
      (fun _ => B) := by
  have hspace := Plan.space_lawfulOn_poised (ρ := ρ) hsetup hkind a.plan.tally.norm
  have hcost : ∀ p : Plan Rat, p.Poised L setup known →
      ∃ c, p.cost setup = .ok c := fun p hp => ⟨_, Tally.total_eq_ok hp.gauged.sound.norms _⟩
  have hfree : ∀ d : Drawn (Plan Rat) ρ,
      d.state.Poised L setup known ∧ d.state.tally.norm = a.plan.tally.norm → B ∨ ∃ u cost,
        (Plan.perturb setup false).run d = .ok () u ∧ u.state.cost setup = .ok cost := by
    rintro ⟨p, r⟩ ⟨hp, -⟩
    by_cases hstuck : p.Stuck setup r
    · exact Or.inl (hB p r hp.gauged.sound hstuck)
    · obtain ⟨q, r', hrun, hmoved⟩ := Plan.run_perturb hsetup hp.gauged.sound false hstuck
      obtain ⟨c, hc⟩ := hcost q (hmoved.poised hkind hp.gauged)
      exact Or.inr ⟨⟨q, r'⟩, c, hrun, hc⟩
  have hsearch := Annealing.run_course hspace hfree hschedule (fun p hp => Or.inr (hcost p hp.1)) t
    a.run ⟨ha, rfl⟩ a.run rfl
  intro s hs
  rw [hs]
  simp only [search, onRun, EStateM.run_bind, Edit.run_within]
  cases hrun : (Annealing.run (Plan.space setup) setup.schedule t).run a.run with
  | error e r =>
      rw [hrun] at hsearch
      exact hsearch
  | ok trace r =>
      rw [hrun] at hsearch
      obtain ⟨⟨hpoised, -⟩, rounds, hfound⟩ := hsearch
      -- measuring all terms anew does not change the cost
      have hmeasured := hpoised.measured true
      have hfinal := hpoised.gauged.cost_eq hsetup
      rw [show r.current.state.cost setup = .ok trace.finalCost from hfound.final.2] at hfinal
      obtain ⟨o, ho, hbest, hcosts, hraw, hplacements, hlist⟩ :=
        Plan.outcome_eq_ok hmeasured.gauged.sound.norms hfinal.symm trace
      simp only [EStateM.run_modify, onPlan, onDrawn, onRun, Edit.run_within,
        Plan.run_evaluate hsetup, EStateM.run_get, outcome, plan, ho, Edit.run_ofExcept_ok]
      refine ⟨⟨⟨?_, ?_⟩, hplacements, ?_, ?_, ?_⟩, hmeasured, trivial⟩
      · rw [hcosts, hbest, hfound.final.1]
      · rw [hbest, ← hfound.final.1]
        exact hfinal.symm
      · rw [hraw, List.forall₂_map_right_iff, List.forall₂_same]
        intro term _
        refine ⟨rfl, (setup.objective.measure_eq_ok hsetup.area_ne _ term).trans ?_⟩
        simp only [Tally.measured, PerTerm.get_ofFn, Bool.true_or, if_true, plan]
      · obtain ⟨c, hc⟩ := hcost a.plan ha
        exact ⟨c, hc, hbest.trans_le (hfound.best.2 (Or.inl hc))⟩
      · intro c hc
        obtain ⟨i, hi⟩ := List.getElem?_of_mem (hlist ▸ hc)
        exact hbest.trans_le (hfound.costs i c hi).1

/-! ## Runs -/

/-- Where the search of a run begins: with the annealer as it is, or as calibration has left it. -/
def Begins (setup : Setup Rat) (a s : Annealer Rat ρ) : Prop :=
  a.temperature.isSome ∧ s = a ∨ a.temperature = none ∧ (calibrate setup).run a = .ok () s

/-- An annealer whose plan is sound, and steady once the temperature is known. -/
structure Ready (setup : Setup Rat) (known : Layout.Makeups Rat) (a : Annealer Rat ρ) : Prop where
  sound : a.plan.Sound known
  steady : a.temperature.isSome → a.plan.Steady setup known

/-- An annealer whose plan is sound, and poised once the temperature is known. -/
structure Primed (L : Layout Rat → Prop) (setup : Setup Rat) (known : Layout.Makeups Rat)
    (a : Annealer Rat ρ) : Prop where
  sound : a.plan.Sound known
  poised : a.temperature.isSome → a.plan.Poised L setup known

omit [DrawSource ρ Rat] [LawfulDraws ρ Rat] [Transcendental Rat] in
lemma ready_iff : a.Ready setup known ↔ a.Primed Plan.Packed setup known := by
  constructor
  · rintro ⟨hsound, hsteady⟩
    exact ⟨hsound, fun h => Plan.steady_iff.mp (hsteady h)⟩
  · rintro ⟨hsound, hpoised⟩
    exact ⟨hsound, fun h => Plan.steady_iff.mpr (hpoised h)⟩

section Primed

variable (hsetup : setup.Fair) (hschedule : setup.schedule.Sensible) {L : Layout Rat → Prop}
  (hkind : Plan.MovesKeep L setup known) {B : Prop}
  (hB : ∀ (p : Plan Rat) (r : ρ), p.Sound known → p.Stuck setup r → B)

include hsetup hschedule hkind hB

/-- A run whose temperature is known reports the layout that it leaves behind. -/
lemma anneal_known (ht : a.temperature = some t) (ha : a.plan.Poised L setup known) :
    Edit.Leads (fun s => s = a) (anneal setup)
      (fun o b => Reported setup a b o ∧ b.plan.Poised L setup known ∧ b.temperature.isSome)
      (fun b => (b.plan.Poised L setup known ∧ b.temperature.isSome) ∧ B) := by
  have hreported : Edit.Leads (fun s => s = a) (anneal setup) (fun o b => Reported setup a b o)
      (fun _ => B) := by
    intro s hs
    rw [hs, run_anneal_known ht]
    exact Edit.Leads.mono (search_poised hsetup hschedule hkind hB t ha) (fun _ h => h)
      (fun _ _ h => h.1) (fun _ h => h) a rfl
  have hpoised : Edit.Leads (fun s => s = a) (anneal setup)
      (fun _ b => b.plan.Poised L setup known ∧ b.temperature.isSome)
      (fun b => b.plan.Poised L setup known ∧ b.temperature.isSome) :=
    (anneal_poised hsetup hkind).weaken fun s hs => by
      rw [hs]
      exact ⟨ha, Option.isSome_of_eq_some ht⟩
  exact (hreported.and hpoised).mono (fun _ h => h) (fun _ _ h => h) fun _ h => ⟨h.2, h.1⟩

/-- **What a run reports is the layout that it leaves behind**, if the plan is poised with packed
layouts among those of its kind.  The run can be repeated in any case. -/
theorem anneal_primed (hpacked : ∀ l, Plan.Packed l → L l)
    (hsize : known.length = setup.design.blocks.length)
    (hstart : ∀ costs e, startTemperature costs setup.schedule.initialAcceptance
      setup.schedule.floor = .error e → B) (ha : a.Primed L setup known) :
    Edit.Leads (fun s => s = a) (anneal setup)
      (fun o b => (∃ s, Begins setup a s ∧ Reported setup s b o) ∧ b.plan.Poised L setup known ∧
        b.temperature.isSome)
      (fun b => b.Primed L setup known ∧ B) := by
  have hprimed : ∀ b : Annealer Rat ρ, b.plan.Poised L setup known ∧ b.temperature.isSome →
      b.Primed L setup known := fun b hb => ⟨hb.1.gauged.sound, fun _ => hb.1⟩
  intro s hs
  rw [hs]
  cases ht : a.temperature with
  | some t =>
      have hsome := Option.isSome_of_eq_some ht
      exact (anneal_known hsetup hschedule hkind hB ht (ha.poised hsome)).mono (fun _ h => h)
        (fun o b h => ⟨⟨a, Or.inl ⟨hsome, rfl⟩, h.1⟩, h.2⟩) (fun b h => ⟨hprimed b h.1, h.2⟩) a rfl
  | none =>
      have hcalibrate := calibrate_keeps hsetup hsize hB hstart (fun t => t = none) a ⟨ha.sound, ht⟩
      cases hrun : (calibrate setup).run a with
      | error e b =>
          rw [hrun] at hcalibrate
          obtain ⟨⟨hsound, hb⟩, hnone⟩ := hcalibrate
          rw [run_anneal_error ht hrun]
          exact ⟨⟨hsound, by simp [hnone]⟩, hb⟩
      | ok _ b =>
          rw [hrun] at hcalibrate
          obtain ⟨⟨hsettled, hlast⟩, hsome⟩ := hcalibrate
          obtain ⟨t, hb⟩ := Option.isSome_iff_exists.mp hsome
          have hgauged : b.plan.Gauged L setup known :=
            ⟨hsettled.sound, hpacked _ hsettled.packed, hsettled.measured⟩
          rw [run_anneal_calibrated ht hrun hb]
          exact (anneal_known hsetup hschedule hkind hB hb (hgauged.poised hlast)).mono
            (fun _ h => h)
            (fun o c h => ⟨⟨b, Or.inr ⟨ht, hrun⟩, h.1⟩, h.2⟩)
            (fun c h => ⟨hprimed c h.1, h.2⟩) b rfl

end Primed

/-- **What a run reports is the layout that it leaves behind.**  A run fails only if a move is stuck
or the initial temperature cannot be worked out, and it can be run again in any case. -/
theorem anneal_reported (hsetup : setup.Fair) (hschedule : setup.schedule.Sensible)
    (hsize : known.length = setup.design.blocks.length) {B : Prop}
    (hB : ∀ (p : Plan Rat) (r : ρ), p.Sound known → p.Stuck setup r → B)
    (hstart : ∀ costs e, startTemperature costs setup.schedule.initialAcceptance
      setup.schedule.floor = .error e → B) (ha : a.Ready setup known) :
    Edit.Leads (fun s => s = a) (anneal setup)
      (fun o b => (∃ s, Begins setup a s ∧ Reported setup s b o) ∧ b.plan.Steady setup known ∧
        b.temperature.isSome)
      (fun b => b.Ready setup known ∧ B) := by
  simp only [ready_iff, Plan.steady_iff] at ha ⊢
  exact anneal_primed hsetup hschedule Plan.movesKeep_packed hB (fun _ h => h) hsize hstart ha

/-- A run leaves an annealer behind that can be run again. -/
lemma anneal_ready (hsetup : setup.Fair) (hschedule : setup.schedule.Sensible)
    (hsize : known.length = setup.design.blocks.length) :
    Edit.Leads (Ready setup known : Annealer Rat ρ → Prop) (anneal setup)
      (fun _ => Ready setup known) (Ready setup known) := by
  intro a ha
  refine (anneal_reported hsetup hschedule hsize (B := True) (fun _ _ _ _ => trivial)
    (fun _ _ _ => trivial) ha).mono (fun _ h => h) (fun _ b h => ?_) (fun _ h => h.1) a rfl
  exact ⟨h.2.1.settled.sound, fun _ => h.2.1⟩

omit [DrawSource ρ Rat] [LawfulDraws ρ Rat] [Transcendental Rat] in
/-- A run that starts where another one has ended does not end worse. -/
lemma bestCost_le_of_reported {s c : Annealer Rat ρ} {o' : Outcome Rat} (h : Reported setup s b o)
    (h' : Reported setup b c o') : o'.bestCost ≤ o.bestCost := by
  obtain ⟨cost, hcost, hle⟩ := h'.start
  rw [h.final.2, Except.ok.injEq] at hcost
  exact hcost ▸ hle

/-- What a number of runs make of an annealer.  A run that fails leaves behind what it has changed
so far, and the next one goes on from there. -/
def afterRuns (setup : Setup Rat) (count : Nat) (a : Annealer Rat ρ) : Annealer Rat ρ :=
  (Edit.after (anneal setup))^[count] a

lemma afterRuns_ready (hsetup : setup.Fair) (hschedule : setup.schedule.Sensible)
    (hsize : known.length = setup.design.blocks.length) (count : Nat) (ha : a.Ready setup known) :
    (a.afterRuns setup count).Ready setup known := by
  induction count with
  | zero => exact ha
  | succ count ih =>
      rw [afterRuns, Function.iterate_succ_apply']
      exact (anneal_ready hsetup hschedule hsize).after ih

omit [DrawSource ρ Rat] [LawfulDraws ρ Rat] [Transcendental Rat] in
lemma start_ready {d : Design Rat} {settings : Settings Rat} {setup : Setup Rat} {plan : Plan Rat}
    (hmade : Setup.ofDesign d settings = .ok (setup, plan)) (hblocks : ∀ b ∈ d.blocks, b.WellFormed)
    (draws : ρ) : (start plan draws).Ready setup (d.blocks.map Block.makeup) :=
  ⟨Setup.ofDesign_sound hmade fun b hb => (hblocks b hb).showsShape, by simp [start]⟩

/-- Every run is successful if every block lists every orientation once. -/
lemma anneal_succeeds {d : Design Rat} {settings : Settings Rat} {setup : Setup Rat}
    {plan : Plan Rat} (hmade : Setup.ofDesign d settings = .ok (setup, plan))
    (hblocks : ∀ b ∈ d.blocks, b.WellFormed) (hvaried : ∀ b ∈ d.blocks, b.Varied)
    (hlog : ∀ q : Rat, 0 < q → q < 1 → Transcendental.log q ≠ 0) (draws : ρ) (count : Nat) :
    ∃ o b, (anneal setup).run ((start plan draws).afterRuns setup count) = .ok o b := by
  have hsetup := Setup.ofDesign_fair hmade
  have hschedule := Setup.ofDesign_sensible hmade
  have hsize : (d.blocks.map Block.makeup).length = setup.design.blocks.length := by
    rw [List.length_map, Setup.ofDesign_design hmade]
  have hstart : ∀ costs e, startTemperature costs setup.schedule.initialAcceptance
      setup.schedule.floor = .error e → False := by
    intro costs e he
    obtain ⟨t, ht⟩ := startTemperature_eq_ok hlog hsetup.acceptance_pos costs setup.schedule.floor
    rw [ht] at he
    cases he
  have hready := afterRuns_ready hsetup hschedule hsize count (start_ready hmade hblocks draws)
  have hleads := anneal_reported hsetup hschedule hsize
    (fun (p : Plan Rat) (r : ρ) hp => hp.not_stuck hvaried r) hstart hready
  obtain ⟨o, b, hrun, -⟩ := (hleads.mono (fun _ h => h) (fun _ _ h => h) fun _ h => h.2).ok rfl
  exact ⟨o, b, hrun⟩

/-- **Every run reports the layout that it leaves behind, and none ends worse than the one before
it.** A run is successful if every block lists every orientation once. -/
theorem runs_reported {d : Design Rat} {settings : Settings Rat} {setup : Setup Rat}
    {plan : Plan Rat} (hmade : Setup.ofDesign d settings = .ok (setup, plan))
    (hblocks : ∀ b ∈ d.blocks, b.WellFormed) (draws : ρ) (count : Nat) {a : Annealer Rat ρ}
    (ha : a = (start plan draws).afterRuns setup count) :
    (∀ o b, (anneal setup).run a = .ok o b →
      (∃ s, Begins setup a s ∧ Reported setup s b o) ∧
      ∀ o' c, (anneal setup).run b = .ok o' c → o'.bestCost ≤ o.bestCost) ∧
    ((∀ q : Rat, 0 < q → q < 1 → Transcendental.log q ≠ 0) → (∀ b ∈ d.blocks, b.Varied) →
      ∃ o b, (anneal setup).run a = .ok o b) := by
  have hsetup := Setup.ofDesign_fair hmade
  have hschedule := Setup.ofDesign_sensible hmade
  have hsize : (d.blocks.map Block.makeup).length = setup.design.blocks.length := by
    rw [List.length_map, Setup.ofDesign_design hmade]
  have hready := afterRuns_ready hsetup hschedule hsize count (start_ready hmade hblocks draws)
  rw [← ha] at hready
  have hreported : ∀ {a : Annealer Rat ρ}, a.Ready setup (d.blocks.map Block.makeup) →
      ∀ o b, (anneal setup).run a = .ok o b → (∃ s, Begins setup a s ∧ Reported setup s b o) ∧
        b.plan.Steady setup (d.blocks.map Block.makeup) ∧ b.temperature.isSome := by
    intro a ha o b hrun
    have hleads := anneal_reported hsetup hschedule hsize (B := True) (fun _ _ _ _ => trivial)
      (fun _ _ _ => trivial) ha a rfl
    rwa [hrun] at hleads
  constructor
  · intro o b hrun
    obtain ⟨⟨s, hbegins, hs⟩, hsteady, hsome⟩ := hreported hready o b hrun
    refine ⟨⟨s, hbegins, hs⟩, fun o' c hnext => ?_⟩
    obtain ⟨⟨s', hbegins', hs'⟩, -⟩ :=
      hreported ⟨hsteady.settled.sound, fun _ => hsteady⟩ o' c hnext
    -- the temperature is known by now, so that the next search begins with what is left behind
    rcases hbegins' with ⟨-, rfl⟩ | ⟨hnone, -⟩
    · exact bestCost_le_of_reported hs hs'
    · rw [hnone] at hsome
      cases hsome
  · intro hlog hvaried
    rw [ha]
    exact anneal_succeeds hmade hblocks hvaried hlog draws count

end Runs

/-- Two runs in a row, after a first one. -/
theorem runs_reported_turning :
    ∃ setup plan, Setup.ofDesign Session.turning Session.mixed = .ok (setup, plan) ∧
      let _ := Transcendental.tangent
      ∃ a b c : Annealer Rat Stream, ∃ o o',
        a = (start plan (Stream.steady (1 / 2) (by norm_num) 0)).afterRuns setup 1 ∧
        (anneal setup).run a = .ok o b ∧ (anneal setup).run b = .ok o' c ∧
        (∃ s, Begins setup a s ∧ Reported setup s b o) ∧ o'.bestCost ≤ o.bestCost := by
  obtain ⟨setup, plan, hmade⟩ :
      ∃ setup plan, Setup.ofDesign Session.turning Session.mixed = .ok (setup, plan) :=
    ⟨_, _, by with_unfolding_all rfl⟩
  refine ⟨setup, plan, hmade, ?_⟩
  let _ := Transcendental.tangent
  have hlog : ∀ q : Rat, 0 < q → q < 1 → Transcendental.log q ≠ 0 :=
    fun q _ hq => sub_ne_zero.mpr hq.ne
  let first : Annealer Rat Stream := start plan (Stream.steady (1 / 2) (by norm_num) 0)
  obtain ⟨hreported, hok⟩ :=
    runs_reported hmade Session.turning_wellFormed _ 1 (a := first.afterRuns setup 1) rfl
  obtain ⟨o, b, hrun⟩ := hok hlog Session.turning_varied
  have hsecond : b = first.afterRuns setup 2 := by
    rw [afterRuns, Function.iterate_succ_apply', ← afterRuns, Edit.after, Edit.outcome, hrun]
  obtain ⟨o', c, hnext⟩ :=
    (runs_reported hmade Session.turning_wellFormed _ 2 hsecond).2 hlog Session.turning_varied
  obtain ⟨hb, hle⟩ := hreported o b hrun
  exact ⟨_, b, c, o, o', rfl, hrun, hnext, hb, hle o' c hnext⟩

end Annealer

end BlockPlan
