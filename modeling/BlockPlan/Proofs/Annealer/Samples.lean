import Mathlib
import BlockPlan.Proofs.Annealer.Coherence
import BlockPlan.Proofs.Annealer.Stages
import BlockPlan.Proofs.Annealer.Tasks
import BlockPlan.Proofs.Cost.Norms

/-!
# What a calibration makes of its samples

The walk of a calibration measures all terms after each of its moves.  These samples give the norms,
and with these norms they cost on average what the terms weigh that are not zero in all of them.

* `Samples` — the samples that a calibration takes.
* `walk_samples` — no value of a sample of seated blocks lies below zero.
* **`calibrate_samples`** — the norms that a calibration leaves are those of its samples.
* **`calibrate_meanCost`** — the mean cost of samples with their own norms, wherever they come from.
-/

namespace BlockPlan

open Edit (Leads Maintains)

variable {ρ : Type} {setup : Setup Rat} {known : Layout.Makeups Rat}

/-! ## Samples of seated blocks -/

namespace Plan

/-- Blocks that stand where packing may have put them. -/
abbrev Seated (p : Plan Rat) : Prop := p.layout.Seated

/-- A plan whose norms are those of some samples. -/
def Normed (samples : List (PerTerm Rat)) (p : Plan Rat) : Prop :=
    p.tally.setNorms samples = p.tally

lemma Normed.of_norm {samples : List (PerTerm Rat)} {p q : Plan Rat} (h : p.Normed samples)
    (hnorm : q.tally.norm = p.tally.norm) : q.Normed samples := by
  rw [Normed, Tally.setNorms_congr hnorm, h, ← hnorm]

/-- Measuring does not change the norms. -/
lemma evaluate_normed (hsetup : setup.Fair) (everything : Bool) (samples : List (PerTerm Rat)) :
    Leads (Normed samples) (evaluate setup everything) (fun _ => Normed samples) (fun _ => False) :=
  Leads.of_ok fun p hp => ⟨(), _, run_evaluate hsetup everything p, hp.of_norm rfl⟩

section Values

variable (hsetup : setup.Fair)
  (hvalues : ∀ l : Layout Rat, l.Seated → ∀ t, ∃ v, setup.objective.measure l t = .ok v ∧ 0 ≤ v)

include hsetup hvalues

lemma evaluate_seated :
    Leads Seated (evaluate setup true) (fun _ p => p.Seated ∧ p.tally.Nonneg) (fun _ => False) := by
  refine Leads.of_ok fun p hp => ⟨(), _, run_evaluate hsetup true p, hp, fun t => ?_⟩
  simp only [Tally.measured, PerTerm.get_ofFn, Bool.true_or, if_true]
  exact Objective.value_nonneg hsetup.area_ne (hvalues p.layout hp t)

variable [DrawSource ρ Rat]

/-- After a random move of seated blocks, with all terms measured, no raw value lies below zero. -/
lemma perturb_seated :
    Leads (fun t : Drawn (Plan Rat) ρ => t.state.Seated) (perturb setup true)
      (fun _ t => t.state.Seated ∧ t.state.tally.Nonneg) (fun t => t.state.Seated) := by
  refine perturb_leads (Q := fun p => p.Seated ∧ p.tally.Nonneg) (fun _ h => h) fun kind => ?_
  refine Leads.bind Leads.get fun t => Leads.fact fun _ => ?_
  refine Leads.bind ((Layout.makeMove_keeps Block.setShape_seated _ _ kind).within (fun _ h => h)
    fun _ _ _ h => h) fun step => ?_
  have hrepack : Leads Seated (onLayout (Layout.repackFrom step.touched))
      (fun _ => Seated) Seated :=
    ((Layout.repackFrom_seated _).within fun _ _ => rfl).mono (fun _ h => h) (fun _ _ h => h.1)
      fun _ h => h
  have hrest : Leads Seated (do
      let moved ← onLayout (Layout.repackFrom step.touched)
      evaluate setup true
      modify fun q =>
        { q with lastMove := some ⟨step.kind, step.changes, moved, t.state.tally.raw.toList⟩ })
      (fun _ p => p.Seated ∧ p.tally.Nonneg) Seated :=
    Leads.bind hrepack fun _ => Leads.bind (evaluate_seated hsetup hvalues).of_total fun _ =>
      Leads.modify fun _ h => h
  exact hrest.onState

/-- No value of a sample of a walk from seated blocks lies below zero. -/
lemma walk_samples (count : Nat) :
    Leads (fun t : Drawn (Plan Rat) ρ => t.state.Seated) (Annealer.walk setup count)
      (fun samples _ => ∀ s ∈ samples, ∀ t, 0 ≤ s.get t) (fun t => t.state.Seated) := by
  induction count with
  | zero => exact Leads.pure fun _ _ => by simp
  | succ count ih =>
      refine Leads.bind (perturb_seated hsetup hvalues) fun _ => ?_
      refine Leads.bind Leads.get fun moved => Leads.fact fun hmoved => ?_
      refine Leads.bind (ih.weaken fun _ h => h.1) fun rest => Leads.pure fun _ hrest s hs => ?_
      rcases List.mem_cons.mp hs with rfl | hs
      · exact hmoved.2
      · exact hrest s hs

end Values

end Plan

namespace Annealer

section Walk

variable [DrawSource ρ Rat]

/-- A walk takes a sample after each of its moves. -/
lemma walk_length (setup : Setup Rat) (count : Nat) :
    Leads (fun _ : Drawn (Plan Rat) ρ => True) (walk setup count)
      (fun samples _ => samples.length = count) (fun _ => True) := by
  induction count with
  | zero => exact Leads.pure fun _ _ => rfl
  | succ count ih =>
      refine Leads.bind (Leads.anywhere _) fun _ => Leads.bind Leads.get fun _ => ?_
      refine Leads.bind (ih.weaken fun _ _ => trivial) fun rest => Leads.pure fun _ hrest => ?_
      rw [List.length_cons, hrest]

/-- The samples that the calibration of an annealer takes: those of the walk from its opening. -/
def Samples (setup : Setup Rat) (a : Annealer Rat ρ) (samples : List (PerTerm Rat)) : Prop :=
  ∃ snapshot opened b, (opening setup).run a = .ok snapshot opened ∧
    (onDrawn (walk setup setup.schedule.trials.toNat)).run opened = .ok samples b

omit [DrawSource ρ Rat] in
/-- An edit that succeeds on an annealer succeeds on its plan together with its draws. -/
lemma run_onDrawn_eq_ok {β : Type} {edit : Edit Rat (Drawn (Plan Rat) ρ) β} {a b : Annealer Rat ρ}
    {v : β} (h : (onDrawn edit).run a = .ok v b) :
    edit.run a.run.current = .ok v b.run.current := by
  simp only [onDrawn, onRun, Edit.run_within] at h
  cases hr : edit.run a.run.current with
  | ok w t =>
      rw [hr] at h
      cases h
      rfl
  | error e t =>
      rw [hr] at h
      cases h

lemma Samples.length {a : Annealer Rat ρ} {samples : List (PerTerm Rat)}
    (h : a.Samples setup samples) : samples.length = setup.schedule.trials.toNat := by
  obtain ⟨_, opened, b, -, hwalk⟩ := h
  exact (walk_length setup _).of_run trivial (run_onDrawn_eq_ok hwalk)

omit [DrawSource ρ Rat] in
/-- A calibration opens with seated blocks. -/
lemma opening_seated (hsetup : setup.Fair) (hsize : known.length = setup.design.blocks.length) :
    Leads (fun a : Annealer Rat ρ => (a.plan.layout.Keyed known ∧ a.plan.layout.Solid) ∧ True)
      (opening setup) (fun _ a => a.plan.Seated ∧ True) (fun _ => False) := by
  have hpack : Leads (fun l => l.Keyed known ∧ l.Solid)
      (modify Layout.pack : Edit Rat (Layout Rat) Unit) (fun _ => Layout.Seated) (fun _ => False) :=
    Leads.modify fun l hl => hl.2.pack_seated hl.1.coherent
  have hevaluate : Leads Plan.Seated (Plan.evaluate setup true) (fun _ => Plan.Seated)
      (fun _ => False) :=
    Leads.of_ok fun p hp => ⟨(), _, Plan.run_evaluate hsetup true p, hp⟩
  refine Leads.bind (onPlan_total (fun _ => True)
    ((installInitial_keyedSolid hsetup hsize).within fun _ _ => rfl)) fun _ => ?_
  refine Leads.bind (onPlan_total (fun _ => True) (hpack.within fun _ _ => rfl)) fun _ => ?_
  refine Leads.bind Leads.get fun _ => Leads.fact fun _ => ?_
  exact Leads.bind (onPlan_total (fun _ => True) hevaluate) fun _ => Leads.pure fun _ h => h

/-- No value of a sample that a calibration takes lies below zero if seated blocks have no such
value. -/
lemma Samples.nonneg {a : Annealer Rat ρ} {samples : List (PerTerm Rat)}
    (h : a.Samples setup samples) (hsetup : setup.Fair)
    (hsize : known.length = setup.design.blocks.length) (hkeyed : a.plan.layout.Keyed known)
    (hsolid : a.plan.layout.Solid)
    (hvalues : ∀ l : Layout Rat, l.Seated → ∀ t, ∃ v, setup.objective.measure l t = .ok v ∧ 0 ≤ v) :
    ∀ s ∈ samples, ∀ t, 0 ≤ s.get t := by
  obtain ⟨_, opened, b, hopening, hwalk⟩ := h
  have hseated := ((opening_seated hsetup hsize).of_run ⟨⟨hkeyed, hsolid⟩, trivial⟩ hopening).1
  exact (Plan.walk_samples hsetup hvalues _).of_run hseated (run_onDrawn_eq_ok hwalk)

end Walk

section Calibrate

variable [DrawSource ρ Rat] [Transcendental Rat]

/-- **The norms that a calibration leaves are those of its samples.** -/
theorem calibrate_samples (hsetup : setup.Fair) {a b : Annealer Rat ρ}
    (hrun : (calibrate setup).run a = .ok () b) :
    ∃ samples, a.Samples setup samples ∧ b.plan.Normed samples := by
  rw [calibrate_eq] at hrun
  obtain ⟨snapshot, opened, hopening, hrun⟩ := Edit.run_bind_eq_ok.mp hrun
  obtain ⟨samples, walked, hwalk, hrun⟩ := Edit.run_bind_eq_ok.mp hrun
  obtain ⟨⟨tally, t⟩, gauged, hgauged, hrun⟩ := Edit.run_bind_eq_ok.mp hrun
  refine ⟨samples, ⟨snapshot, opened, walked, hopening, hwalk⟩, ?_⟩
  -- once the norms are found, all that follows leaves them as they are
  let T : Option Rat → Prop := fun _ => True
  let I : Annealer Rat ρ → Prop := fun a => a.plan.Normed samples ∧ T a.temperature
  have honLayout : ∀ {β : Type} (edit : Edit Rat (Layout Rat) β),
      Maintains (Plan.Normed samples) (Plan.onLayout edit) :=
        fun edit => Maintains.beside _ fun _ _ hp => hp
  have hgauge : Leads (fun _ => True ∧ True) (gauge setup samples) (fun _ => I)
      (fun _ => True) := by
    have hnorms : Leads (fun _ => True)
        (modify fun p => { p with tally := p.tally.setNorms samples } : Edit Rat (Plan Rat) Unit)
        (fun _ => Plan.Normed samples) (fun _ => True) :=
      Leads.modify fun p _ => Tally.setNorms_setNorms p.tally samples
    refine Leads.bind ((onPlan_leads T hnorms).mono (fun _ h => h) (fun _ _ h => h)
        fun _ _ => trivial)
      fun _ => ?_
    refine Leads.bind Leads.get fun _ => Leads.fact fun _ => ?_
    refine Leads.bind (Leads.ofExcept (fun _ _ _ h => h) fun _ _ _ _ => trivial) fun _ => ?_
    refine Leads.bind (Leads.ofExcept (fun _ _ _ h => h) fun _ _ _ _ => trivial) fun _ => ?_
    exact Leads.bind (Leads.modify (Q := fun _ => I) fun _ h => h) fun _ => Leads.pure fun _ h => h
  have hreopen : Maintains I (reopen setup snapshot) := by
    refine Leads.bind (onPlan_leads T (honLayout _)) fun _ => ?_
    refine Leads.bind (onPlan_total T (Plan.evaluate_normed hsetup true samples)) fun _ => ?_
    exact onPlan_leads T (Leads.modify fun _ h => h)
  have hrecord : Maintains I (recordCalibration setup tally t) := by
    refine Leads.bind (Leads.forM fun _ _ => note_leads T _) fun _ => Maintains.read fun _ _ => ?_
    exact Leads.bind (Maintains.ofExcept _) fun _ => note_leads T _
  exact ((Leads.bind hreopen fun _ => hrecord).of_run
      (hgauge.of_run ⟨trivial, trivial⟩ hgauged) hrun).1

variable [LawfulDraws ρ Rat]

/-- **Samples with their own norms cost on average what the terms weigh that occur in them**, as
long as none of their values lies below zero; and the total of any values is the cost of these.  The
norms that a calibration leaves are those of its samples, one for each move of its walk.  So this is
what the samples of every calibration cost on average, and none of their values lies below zero
unless a net has a negative weight. -/
theorem calibrate_meanCost {d : Design Rat} {settings : Settings Rat} {plan : Plan Rat}
    (hmade : Setup.ofDesign d settings = .ok (setup, plan)) (hsolid : ∀ b ∈ d.blocks, b.Solid)
    (hblocks : ∀ b ∈ d.blocks, b.Lists b.shapeKey) (draws : ρ) (tasks : List Task) :
    (∀ (tally : Tally Rat) (weights : Weights Rat) (samples : List (PerTerm Rat)), samples ≠ [] →
      (∀ s ∈ samples, ∀ t, 0 ≤ s.get t) →
      ∃ costs, samples.mapM (fun s => (tally.setNorms samples).costOf weights s.toList)
          = .ok costs ∧
        costs.sum / (costs.length : Nat) = Tally.activeWeight weights samples) ∧
    (∀ (tally : Tally Rat) (weights : Weights Rat),
      tally.total weights = tally.costOf weights tally.raw.toList) ∧
    ∀ a b : Annealer Rat ρ, a = (start plan draws).afterTasks setup tasks →
      (calibrate setup).run a = .ok () b →
      ∃ samples, a.Samples setup samples ∧
        samples.length = setup.schedule.trials.toNat ∧ samples ≠ [] ∧
        b.plan.tally.setNorms samples = b.plan.tally ∧
        ((∀ n ∈ d.nets, 0 ≤ n.weight) → ∀ s ∈ samples, ∀ t, 0 ≤ s.get t) ∧
        ((∀ s ∈ samples, ∀ t, 0 ≤ s.get t) →
          ∃ costs, samples.mapM (fun s => b.plan.tally.costOf setup.objective.weights s.toList)
              = .ok costs ∧
            costs.sum / (costs.length : Nat)
                = Tally.activeWeight setup.objective.weights samples) := by
  refine ⟨?_, Tally.total_eq_costOf, ?_⟩
  · intro tally weights samples hsome hnonneg
    exact Tally.costs_setNorms hsome hnonneg tally weights
  rintro a b rfl hrun
  have hsetup := Setup.ofDesign_fair hmade
  obtain ⟨hwidth, hheight⟩ := Setup.ofDesign_outline hmade
  obtain ⟨samples, hsamples, hnormed⟩ := calibrate_samples hsetup hrun
  have hsome : samples ≠ [] := by
    have htrials := (Setup.ofDesign_sensible hmade).trials
    have hlength := hsamples.length
    exact List.ne_nil_of_length_pos (by omega)
  refine ⟨samples, hsamples, hsamples.length, hsome, hnormed, ?_, ?_⟩
  · intro hnets
    have hstart : (start plan draws).Solid := by
      obtain ⟨-, -, -, -, -, -, -, hsame, -⟩ := Setup.ofDesign_eq_ok hmade
      rw [← hsame] at hsolid
      exact hsolid
    have hkeyed := (afterTasks_keyed hmade hblocks draws tasks).layout
    exact hsamples.nonneg hsetup (Setup.ofDesign_size hmade) hkeyed
      (afterTasks_solid hsetup hwidth hheight tasks hstart)
      fun l hl => Setup.ofDesign_seated hmade hnets hl
  · intro hnonneg
    have hcosts := Tally.costs_setNorms hsome hnonneg b.plan.tally setup.objective.weights
    rwa [hnormed] at hcosts

end Calibrate

/-- The first calibration of a block that can be turned and one with two candidates. -/
theorem calibrate_meanCost_turning :
    ∃ setup plan, Setup.ofDesign Session.turning Session.mixed = .ok (setup, plan) ∧
      let _ := Transcendental.tangent
      let a : Annealer Rat Stream := start plan (Stream.steady (1 / 2) (by norm_num) 0)
      ∃ (b : Annealer Rat Stream) (samples : List (PerTerm Rat)),
        (calibrate setup).run a = .ok () b ∧
        a.Samples setup samples ∧ samples ≠ [] ∧
        ∃ costs, samples.mapM (fun s => b.plan.tally.costOf setup.objective.weights s.toList)
            = .ok costs ∧
          costs.sum / (costs.length : Nat)
              = Tally.activeWeight setup.objective.weights samples := by
  obtain ⟨setup, plan, hmade⟩ :
      ∃ setup plan, Setup.ofDesign Session.turning Session.mixed = .ok (setup, plan) :=
    ⟨_, _, by with_unfolding_all rfl⟩
  refine ⟨setup, plan, hmade, ?_⟩
  let _ := Transcendental.tangent
  have hshows : ∀ b ∈ Session.turning.blocks, b.ShowsShape := fun b hb =>
    (Session.turning_wellFormed b hb).showsShape
  obtain ⟨b, hrun, -⟩ := run_calibrate (Setup.ofDesign_fair hmade) (Setup.ofDesign_size hmade)
    (fun q _ hq => sub_ne_zero.mpr hq.ne) (fun p r hp => hp.not_stuck Session.turning_varied r)
    (a := start plan (Stream.steady (1 / 2) (by norm_num) 0)) (Setup.ofDesign_sound hmade hshows)
  obtain ⟨-, -, hcalibrated⟩ := calibrate_meanCost hmade
    (fun b hb => (Session.turning_wellFormed b hb).solid) (fun b hb => (hshows b hb).lists)
    (Stream.steady (1 / 2) (by norm_num) 0) []
  obtain ⟨samples, hsamples, -, hsome, -, hnonneg, hcosts⟩ := hcalibrated _ b rfl hrun
  exact ⟨b, samples, hrun, hsamples, hsome, hcosts (hnonneg (by simp [Session.turning]))⟩

end Annealer

end BlockPlan
