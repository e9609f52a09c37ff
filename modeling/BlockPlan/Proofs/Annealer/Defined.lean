import BlockPlan.Proofs.Annealer.Stages
import BlockPlan.Proofs.Search.Consulted

/-!
# Arithmetic that is always defined

After any calibrations and runs, whether they have succeeded or failed, an annealer can be
calibrated and run once more.  Wherever this leads, nothing is divided by zero, the logarithm is
taken of a number between zero and one, and the exponential of numbers below zero.

* `Playable`, **`carryOut_playable`** — calibrations and runs keep an annealer playable.
* `Searching`, **`searching_of_course`** — what holds wherever a search has come to.
* **`carryOut_defined`** — after any calibrations and runs, all that a further one works out is
  defined.
-/

namespace BlockPlan

open Edit (Leads Maintains)

namespace Annealer

variable {ρ : Type} {setup : Setup Rat} {known : Layout.Makeups Rat}

/-! ## Calibrations and runs -/

/-- An annealer that can be calibrated, and is underway once its temperature is known. -/
structure Playable (setup : Setup Rat) (known : Layout.Makeups Rat) (a : Annealer Rat ρ) :
    Prop where
  keyed : a.plan.Keyed known
  openable : a.Openable setup known
  underway : a.temperature.isSome → a.Underway setup

section Tasks

variable [Transcendental Rat] [DrawSource ρ Rat] (hsetup : setup.Fair) (hregular : setup.Regular)
  (hsize : known.length = setup.design.blocks.length)

include hsetup hregular hsize

/-- A run keeps an annealer going, whether it succeeds or fails. -/
lemma anneal_underway :
    Leads (Playable setup known : Annealer Rat ρ → Prop) (anneal setup) (fun _ => Underway setup)
      (Underway setup) := by
  refine anneal_leads (I := Plan.Scored) (T := Tempered setup) (Plan.keeps_scored hsetup hregular)
    (Plan.evaluate_scored hsetup hregular true) ?_ fun a ha hsome =>
    ha.underway (by simpa using hsome)
  exact (calibrate_underway hregular hsetup hsize).weaken fun _ ha => ha.1.openable

/-- **Calibrations and runs keep an annealer playable**, whether they succeed or fail. -/
theorem carryOut_playable [LawfulDraws ρ Rat] (hwidth : 0 < setup.objective.outlineWidth)
    (hheight : 0 < setup.objective.outlineHeight) {task : Task}
    (htask : task = .calibrate ∨ task = .run) :
    Maintains (Playable setup known : Annealer Rat ρ → Prop) (carryOut setup task) := by
  have hunderway : Leads (Playable setup known : Annealer Rat ρ → Prop) (carryOut setup task)
      (fun _ => Underway setup) (Underway setup) := by
    rcases htask with rfl | rfl
    · exact (calibrate_underway hregular hsetup hsize).weaken fun _ ha => ha.openable
    · exact Leads.bind (anneal_underway hsetup hregular hsize) fun _ => Leads.pure fun _ h => h
  have hkeyed := (carryOut_keyed (ρ := ρ) hsetup hsize hwidth hheight task).weaken
    fun (a : Annealer Rat ρ) (ha : a.Playable setup known) => ha.keyed
  have hboth : ∀ b : Annealer Rat ρ, b.plan.Keyed known ∧ b.Underway setup →
      b.Playable setup known :=
    fun b h => ⟨h.1, h.2.openable h.1.layout, fun _ => h.2⟩
  exact (hkeyed.and hunderway).mono (fun _ h => h) (fun _ => hboth) hboth

/-- Where a search begins, the annealer is underway. -/
lemma Begins.underway {a s : Annealer Rat ρ} (h : Begins setup a s) (ha : a.Playable setup known) :
    s.Underway setup := by
  rcases h with ⟨hsome, rfl⟩ | ⟨-, hrun⟩
  · exact ha.underway hsome
  · have hleads := calibrate_underway hregular hsetup hsize a ha.openable
    rwa [hrun] at hleads

end Tasks

/-! ## The course of a search -/

/-- What holds wherever a search has come to, with the temperature of its next trial. -/
structure Searching [DrawSource ρ Rat] (setup : Setup Rat) (temperature : Rat)
    (s : Annealing.Standing Rat (Kept Rat)) (t : Drawn (Plan Rat) ρ) : Prop where
  plan : t.state.Weighed setup
  costs : 0 ≤ s.cost ∧ 0 ≤ s.bestCost
  floor : setup.schedule.floor ≤ temperature
  /-- The next move leads to a plan that is weighed, and so it does when it fails. -/
  moved : ((Plan.perturb setup false).after t).state.Weighed setup
  /-- If the move leads uphill, its exponent lies below zero. -/
  exponent : ∀ u cost, (Plan.perturb setup false).run t = .ok () u → u.state.cost setup = .ok cost →
    0 < cost - s.cost → -(cost - s.cost) / temperature < 0
  /-- Taking the move back leads to a plan that is weighed. -/
  restored : (Plan.restore.after ((Plan.perturb setup false).after t).state).Weighed setup
  /-- So does going back to the best plan. -/
  loaded : ((Plan.load s.best).after t.state).Weighed setup

/-- **Wherever the course of a search has led to, the next trial is defined.** -/
theorem searching_of_course [Transcendental Rat] [DrawSource ρ Rat] (hsetup : setup.Fair)
    (hregular : setup.Regular) (hschedule : setup.schedule.Sensible) {initial temperature : Rat}
    {s₀ s : Annealing.Standing Rat (Kept Rat)} {t₀ t : Drawn (Plan Rat) ρ}
    {visits : List (Annealing.Visit (Plan Rat) ρ (Kept Rat))} (ht₀ : t₀.state.Scored)
    (hs₀ : Plan.KeptScored s₀.best ∧ 0 ≤ s₀.cost ∧ 0 ≤ s₀.bestCost)
    (h : Annealing.Course (Plan.space setup) setup.schedule initial s₀ t₀ visits s t)
    (htemperature : setup.schedule.temperatureAt
      (visits.length / setup.schedule.trials.toNat : Nat) initial
      = .ok temperature) : Searching setup temperature s t := by
  have hcost : ∀ (u : Plan Rat) c, u.Scored →
      (Plan.space setup : SearchSpace Rat (Plan Rat) ρ _).cost u = .ok c → 0 ≤ c := by
    intro u c hu hc
    obtain ⟨cost, hok, hnonneg⟩ := (hu.2.weighed hsetup).cost
    obtain rfl := Except.ok.inj (hok.symm.trans hc)
    exact hnonneg
  obtain ⟨ht, hbest, hcosts⟩ := h.keeps (Plan.keeps_scored hsetup hregular) hschedule hcost ht₀ hs₀
  obtain ⟨_, hok, hfloor⟩ := hregular.level (visits.length / setup.schedule.trials.toNat) initial
  obtain rfl := Except.ok.inj (hok.symm.trans htemperature)
  have hmoved : ((Plan.perturb setup false).after t).state.Scored :=
    (Plan.perturb_scored hsetup hregular false).after ht
  constructor
  case plan => exact ht.2.weighed hsetup
  case costs => exact hcosts
  case floor => exact hfloor
  case moved => exact hmoved.2.weighed hsetup
  case exponent =>
    intro u cost _ _ hup
    exact Annealing.exponent_neg hup (hregular.floor.trans_le hfloor)
  case restored => exact (Plan.restore_scored.after hmoved).2.weighed hsetup
  case loaded => exact ((Plan.load_scored hbest).after ht).2.weighed hsetup

/-! ## After any calibrations and runs -/

/-- No task asks for the exponential or the logarithm elsewhere than below zero, or between zero and
one. -/
lemma carryOut_congr [DrawSource ρ Rat] {F G : Transcendental Rat} (h : F.Agree G)
    (hschedule : setup.schedule.Sensible) (task : Task) :
    @carryOut ρ _ F setup task = @carryOut ρ _ G setup task := by
  have hcalibrate := calibrate_congr (ρ := ρ) h hschedule
  have hanneal := anneal_congr (ρ := ρ) h hschedule
  cases task with
  | calibrate => simp only [carryOut, hcalibrate]
  | run => simp only [carryOut, hanneal]
  | perturb | restore | fill | align h? v? => rfl

section OfDesign

variable [DrawSource ρ Rat] [LawfulDraws ρ Rat] {d : Design Rat} {settings : Settings Rat}
    {plan : Plan Rat}

/-- The annealer to begin with can be calibrated, and it stays playable after any calibrations and
runs. -/
lemma afterTasks_playable [Transcendental Rat]
    (hmade : Setup.ofDesign d settings = .ok (setup, plan))
    (hblocks : ∀ b ∈ d.blocks, b.Solid ∧ b.Lists b.shapeKey) (hregular : setup.Regular) (draws : ρ)
    {tasks : List Task} (htasks : ∀ task ∈ tasks, task = .calibrate ∨ task = .run) :
    ((start plan draws).afterTasks setup tasks).Playable setup (d.blocks.map Block.makeup) := by
  have hkeyed := Setup.ofDesign_keyed hmade fun b hb => (hblocks b hb).2
  obtain ⟨hwidth, hheight⟩ := Setup.ofDesign_outline hmade
  obtain ⟨-, -, -, -, -, -, -, hsame, -, htally, hlast⟩ := Setup.ofDesign_eq_ok hmade
  have hsolid : plan.layout.Solid := by
    rw [Layout.Solid, hsame]
    intro b hb
    exact (hblocks b hb).1
  have hnonneg : plan.tally.Nonneg := by
    rw [htally]
    exact Tally.nonneg_initial
  have haccounted : plan.Accounted := ⟨hkeyed.norms, hnonneg, by simp [hlast]⟩
  have hstart : (start plan draws).Playable setup (d.blocks.map Block.makeup) := by
    refine ⟨hkeyed, ⟨⟨⟨hkeyed.layout, hsolid⟩, haccounted⟩, ?_⟩, ?_⟩
    · simp [start, Tempered]
    · simp [start]
  refine afterTasks_keeps ?_ hstart
  intro task htask
  exact carryOut_playable (Setup.ofDesign_fair hmade) hregular (Setup.ofDesign_size hmade) hwidth
    hheight (htasks task htask)

/-- **After any calibrations and runs, all that a further one works out is defined**, whatever the
draws, wherever the blocks of the design stood, and whether or not they had been stretched.

The outline has an area, no term of a packed layout lies below zero, no temperature lies below the
floor, and the logarithm is taken of a probability between zero and one.  The annealer is weighed as
it stands, and at every stage of a calibration.  Wherever the course of a search leads, so are the
plan, the one that the next move leads to, the one that taking it back leads to and the best one,
and the exponent of a move uphill lies below zero. Hence calibrations and runs fail in one way
alone, which is not one of arithmetic: a move would turn a block that lists one orientation several
times and no other.  And no exponential or logarithm is asked for elsewhere. -/
theorem carryOut_defined [T : Transcendental Rat]
    (hmade : Setup.ofDesign d settings = .ok (setup, plan))
    (hblocks : ∀ b ∈ d.blocks, b.Solid ∧ b.Lists b.shapeKey) (hnets : ∀ n ∈ d.nets, 0 ≤ n.weight)
    (hlog : ∀ q : Rat, 0 < q → q < 1 → Transcendental.log q ≠ 0) (draws : ρ) {tasks : List Task}
    (htasks : ∀ task ∈ tasks, task = .calibrate ∨ task = .run) {a : Annealer Rat ρ}
    (ha : a = (start plan draws).afterTasks setup tasks) :
    setup.Regular ∧ a.Weighed setup ∧
    (∀ stage, ((calibrateUpTo setup stage).after a).Weighed setup) ∧
    (∀ (b : Annealer Rat ρ) (initial cost : Rat), Begins setup a b → b.temperature = some initial →
      b.plan.cost setup = .ok cost → b.Weighed setup ∧ setup.schedule.floor ≤ initial ∧
      ∀ visits s t temperature, Annealing.Course (Plan.space setup) setup.schedule initial
          ⟨cost, cost, b.plan.keep, 0, 0⟩ b.run.current visits s t →
        setup.schedule.temperatureAt (visits.length / setup.schedule.trials.toNat : Nat) initial
          = .ok temperature → Searching setup temperature s t) ∧
    (∀ task e b, (carryOut setup task).run a = .error e b →
      e = .emptyDrawRange ∧ ∃ b ∈ d.blocks, b.Repeats) ∧
    ∀ F : Transcendental Rat, F.Agree T →
      ∀ task, @carryOut ρ _ F setup task = @carryOut ρ _ T setup task := by
  have hsetup := Setup.ofDesign_fair hmade
  have hsize := Setup.ofDesign_size hmade
  have hschedule := Setup.ofDesign_sensible hmade
  have hregular := Setup.ofDesign_regular hmade hnets hlog
  have hplayable := afterTasks_playable hmade hblocks hregular draws htasks
  rw [← ha] at hplayable
  refine ⟨hregular, hplayable.openable.weighed hsetup, ?_, ?_, ?_, ?_⟩
  · intro stage
    exact calibrateUpTo_weighed hregular hsetup hsize stage hplayable.openable
  · intro b initial cost hbegins htemperature hcost
    have hb := hbegins.underway hsetup hregular hsize hplayable
    have hweighed := hb.weighed hsetup
    obtain ⟨_, hok, hnonneg⟩ := hweighed.plan.cost
    obtain rfl := Except.ok.inj (hok.symm.trans hcost)
    have hkept : Plan.KeptScored b.plan.keep := ⟨Layout.Seated.snapshot hb.1.1, hb.1.2.raw⟩
    refine ⟨hweighed, hb.2 initial htemperature, ?_⟩
    intro visits s t temperature hcourse hlevel
    exact searching_of_course hsetup hregular hschedule hb.1 ⟨hkept, hnonneg, hnonneg⟩ hcourse
      hlevel
  · intro task e b hrun
    obtain ⟨hwidth, hheight⟩ := Setup.ofDesign_outline hmade
    obtain ⟨-, he, hrepeats⟩ := carryOut_failsOnly hsetup hsize hwidth hheight hschedule
      (fun (p : Plan Rat) (r : ρ) hp => hp.repeats_of_stuck)
      (fun costs => (hregular.start costs).imp fun _ ht => ht.1) task a hplayable.keyed e b hrun
    exact ⟨he, hrepeats⟩
  · intro F hF task
    exact carryOut_congr (ρ := ρ) hF hschedule task

end OfDesign

/-- A block that can be turned, to the left of the origin, and one with two candidates that has been
stretched, connected by a net. -/
def wired : Design Rat where
  outlineWidth := 10
  outlineHeight := 10
  blocks := [⟨"a", .hard 2 3 [.r0, .r90] .r0, -7, 0, 2, 3, false⟩,
    ⟨"b", .soft [(4, 1), (2, 2)] 0, 0, 0, 5, 3, false⟩]
  nets := [⟨"n", ["a", "b"], 2⟩]

/-- Once more after a run and a calibration. -/
theorem carryOut_defined_wired :
    ∃ setup plan, Setup.ofDesign wired Session.mixed = .ok (setup, plan) ∧
      let _ := Transcendental.tangent
      ∃ a : Annealer Rat Stream,
        a = (start plan (Stream.steady (1 / 2) (by norm_num) 0)).afterTasks setup
          [.run, .calibrate] ∧
        a.Weighed setup ∧ ((calibrateUpTo setup (.walking 3)).after a).Weighed setup ∧
        ∃ b, (carryOut setup .run).run a = .ok () b := by
  obtain ⟨setup, plan, hmade⟩ : ∃ setup plan,
      Setup.ofDesign wired Session.mixed = .ok (setup, plan) :=
    ⟨_, _, by with_unfolding_all rfl⟩
  refine ⟨setup, plan, hmade, ?_⟩
  let _ := Transcendental.tangent
  have hblocks : ∀ b ∈ wired.blocks, (b.Solid ∧ b.Lists b.shapeKey) ∧ ¬ b.Repeats := by
    intro b hb
    rw [wired, List.mem_cons, List.mem_singleton] at hb
    rcases hb with rfl | rfl
    · have hsides : (0 : Rat) < 2 ∧ (0 : Rat) < 3 := by norm_num
      have hlists : Orientation.r0 ∈ [Orientation.r0, .r90] := by decide
      have hvaried : [Orientation.r0, Orientation.r90].Nodup := by decide
      exact ⟨⟨⟨by norm_num, by norm_num, hsides⟩, hlists⟩, Block.Varied.not_repeats hvaried⟩
    · have hshapes : ∀ c ∈ [((4 : Rat), (1 : Rat)), (2, 2)], 0 < c.1 ∧ 0 < c.2 := by decide +kernel
      have hlists : (0 : Int) ≤ 0 ∧ (0 : Int).toNat < 2 := by decide
      exact ⟨⟨⟨by norm_num, by norm_num, hshapes⟩, hlists⟩, Block.Varied.not_repeats trivial⟩
  have hnets : ∀ n ∈ wired.nets, 0 ≤ n.weight := by
    intro n hn
    obtain rfl := List.mem_singleton.mp hn
    exact (by norm_num : (0 : Rat) ≤ 2)
  obtain ⟨-, hweighed, hstages, -, hfails, -⟩ :=
    carryOut_defined hmade (fun b hb => (hblocks b hb).1) hnets
    (fun q _ hq => sub_ne_zero.mpr hq.ne) (Stream.steady (1 / 2) (by norm_num) 0)
    (show ∀ task ∈ [Task.run, Task.calibrate], task = .calibrate ∨ task = .run by decide) rfl
  refine ⟨_, rfl, hweighed, hstages (.walking 3), ?_⟩
  cases hrun : (carryOut setup .run).run
      ((start plan (Stream.steady (1 / 2) (by norm_num) 0)).afterTasks setup
        [.run, .calibrate]) with
  | ok _ b => exact ⟨b, rfl⟩
  | error e b =>
      obtain ⟨-, c, hc, hrepeats⟩ := hfails .run e b hrun
      exact absurd hrepeats (hblocks c hc).2

end Annealer

end BlockPlan
