import BlockPlan.Proofs.Annealer.Scored
import BlockPlan.Proofs.Annealer.Session

/-!
# Calibration, stage by stage

A calibration opens with a packing, walks through random moves, finds norms and a temperature from
them, and goes back to the packing.  It may be broken off anywhere, and a move of its walk may fail.
Wherever it has come to, no value of the plan lies below zero, and the temperature does not lie
below its floor.  The blocks may have been stretched before; then what it goes back to need not be
packed, but its blocks are seated.

* `Stage`, `calibrateUpTo` — how far a calibration has come, and a calibration that is broken off
  there.
* `opening`, `gauge`, `reopen`, `recordCalibration`, **`calibrate_eq`** — the parts of a
  calibration.
* `Openable`, `Underway` — annealers that can be calibrated, and those that are calibrating or
  running.
* **`calibrate_underway`** — calibration leaves an annealer underway, whether it succeeds or fails.
* **`calibrateUpTo_weighed`** — the plan at every stage.
-/

namespace BlockPlan

open Edit (Leads Maintains)

variable {ρ : Type} {setup : Setup Rat} {known : Layout.Makeups Rat}

namespace Annealer

/-! ## Stages and parts -/

/-- How far a calibration has come. -/
inductive Stage where
  /-- The initial sequences are installed. -/
  | installed
  /-- Their blocks are packed. -/
  | packed
  /-- The packing is measured, and a number of moves has been made. -/
  | walking (moves : Nat)
  /-- The walk has ended, and norms and temperature have been found. -/
  | gauged
  /-- The first packing is back, and measured. -/
  | back
  deriving DecidableEq, Repr

section Stages

/-- Packs the initial sequences and measures the packing.  Answers a snapshot of it. -/
def opening (setup : Setup Rat) : Edit Rat (Annealer Rat ρ) (Snapshot Rat) := do
  onPlan (Plan.onLayout (installInitial setup))
  onPlan (Plan.onLayout (modify Layout.pack))
  let opening := (← get).plan.layout.snapshot
  onPlan (Plan.evaluate setup true)
  pure opening

/-- Finds norms and temperature from the samples of a walk.  Answers the tally with these norms, and
the temperature. -/
def gauge [Transcendental Rat] (setup : Setup Rat) (samples : List (PerTerm Rat)) :
    Edit Rat (Annealer Rat ρ) (Tally Rat × Rat) := do
  onPlan (modify fun p => { p with tally := p.tally.setNorms samples })
  let tally := (← get).plan.tally
  let costs ← Edit.ofExcept (samples.mapM fun s => tally.costOf setup.objective.weights s.toList)
  let t ← Edit.ofExcept
    (startTemperature costs setup.schedule.initialAcceptance setup.schedule.floor)
  modify fun a => { a with temperature := some t }
  pure (tally, t)

/-- Goes back to a packing and measures it. -/
def reopen (setup : Setup Rat) (opening : Snapshot Rat) : Edit Rat (Annealer Rat ρ) Unit := do
  onPlan (Plan.onLayout (Layout.load true opening))
  onPlan (Plan.evaluate setup true)
  onPlan Plan.forget

/-- Writes norms, temperature and cost into the journal. -/
def recordCalibration (setup : Setup Rat) (tally : Tally Rat) (t : Rat) :
    Edit Rat (Annealer Rat ρ) Unit := do
  Term.all.forM fun term =>
    onRun (Annealing.note
      (.normSet term (tally.norm.get term) (setup.objective.weights.get term)))
  let p := (← get).plan
  let cost ← Edit.ofExcept (p.cost setup)
  onRun (Annealing.note
    (.calibrated p.layout.size setup.design.outlineWidth setup.design.outlineHeight t cost))

variable [DrawSource ρ Rat] [Transcendental Rat]

/-- A calibration that is broken off at a stage. -/
def calibrateUpTo (setup : Setup Rat) : Stage → Edit Rat (Annealer Rat ρ) Unit
  | .installed => onPlan (Plan.onLayout (installInitial setup))
  | .packed => do
    onPlan (Plan.onLayout (installInitial setup))
    onPlan (Plan.onLayout (modify Layout.pack))
  | .walking moves => do
    let _ ← opening setup
    let _ ← onDrawn (walk setup moves)
  | .gauged => do
    let _ ← opening setup
    let samples ← onDrawn (walk setup setup.schedule.trials.toNat)
    let _ ← gauge setup samples
  | .back => do
    let opening ← opening setup
    let samples ← onDrawn (walk setup setup.schedule.trials.toNat)
    let _ ← gauge setup samples
    reopen setup opening

/-- **The parts make up the whole calibration.** -/
theorem calibrate_eq (setup : Setup Rat) :
    (calibrate setup : Edit Rat (Annealer Rat ρ) Unit) = (do
      let opening ← opening setup
      let samples ← onDrawn (walk setup setup.schedule.trials.toNat)
      let (tally, t) ← gauge setup samples
      reopen setup opening
      recordCalibration setup tally t) := by
  simp only [calibrate, opening, gauge, reopen, recordCalibration, bind_assoc, pure_bind]

end Stages

/-! ## The plan at every stage -/

/-- An annealer whose plan is weighed, and whose temperature does not lie below the floor once it is
known. -/
structure Weighed (setup : Setup Rat) (a : Annealer Rat ρ) : Prop where
  plan : a.plan.Weighed setup
  temperature : ∀ t, a.temperature = some t → setup.schedule.floor ≤ t

/-- A temperature, if there is one, that does not lie below the floor. -/
def Tempered (setup : Setup Rat) (temperature : Option Rat) : Prop :=
  ∀ t, temperature = some t → setup.schedule.floor ≤ t

/-- An annealer that can be calibrated: its blocks are solid, wherever they stand, and its plan is
accounted. -/
abbrev Openable (setup : Setup Rat) (known : Layout.Makeups Rat) (a : Annealer Rat ρ) : Prop :=
  ((a.plan.layout.Keyed known ∧ a.plan.layout.Solid) ∧ a.plan.Accounted) ∧
    Tempered setup a.temperature

/-- An annealer that is calibrating or running: its plan is scored. -/
abbrev Underway (setup : Setup Rat) (a : Annealer Rat ρ) : Prop :=
  a.plan.Scored ∧ Tempered setup a.temperature

lemma Openable.weighed (hsetup : setup.Fair) {a : Annealer Rat ρ} (h : a.Openable setup known) :
    a.Weighed setup :=
  ⟨h.1.2.weighed hsetup, h.2⟩

lemma Underway.weighed (hsetup : setup.Fair) {a : Annealer Rat ρ} (h : a.Underway setup) :
    a.Weighed setup :=
  ⟨h.1.2.weighed hsetup, h.2⟩

lemma Underway.openable {a : Annealer Rat ρ} (h : a.Underway setup)
    (hkeyed : a.plan.layout.Keyed known) : a.Openable setup known :=
  ⟨⟨⟨hkeyed, h.1.1.solid⟩, h.1.2⟩, h.2⟩

/-- Installing the initial sequences does not fail, and keeps solid blocks that are keyed. -/
lemma installInitial_keyedSolid (hsetup : setup.Fair)
    (hsize : known.length = setup.design.blocks.length) :
    Leads (fun l : Layout Rat => l.Keyed known ∧ l.Solid) (installInitial setup)
      (fun _ l => l.Keyed known ∧ l.Solid) (fun _ => False) :=
  (((installInitial_leads Layout.closed_keyed hsetup hsize).weaken fun _ h => h.1).and
    (installInitial_solid.weaken fun _ h => h.2)).mono
      (fun _ h => h) (fun _ _ h => h) fun _ h => h.1

lemma installed_leads (hsetup : setup.Fair) (hsize : known.length = setup.design.blocks.length) :
    Leads (Openable setup known : Annealer Rat ρ → Prop)
      (onPlan (Plan.onLayout (installInitial setup)))
      (fun _ => Openable setup known) (fun _ => False) :=
  onPlan_total (Tempered setup)
    ((Plan.onLayout_accounted (installInitial_keyedSolid hsetup hsize)).mono (fun _ h => h)
      (fun _ _ h => h) fun _ h => h.1)

/-- Packing puts a plan that can be calibrated underway. -/
lemma packed_leads :
    Leads (Openable setup known : Annealer Rat ρ → Prop)
      (onPlan (Plan.onLayout (modify Layout.pack))) (fun _ => Underway setup) (fun _ => False) := by
  have hlayout : Leads (fun l => l.Keyed known ∧ l.Solid)
      (modify Layout.pack : Edit Rat (Layout Rat) Unit) (fun _ => Layout.Seated) (fun _ => False) :=
    Leads.modify fun l hl => hl.2.pack_seated hl.1.coherent
  exact onPlan_total (Tempered setup)
    ((Plan.onLayout_accounted hlayout).mono (fun _ h => h) (fun _ _ h => h) fun _ h => h.1)

/-- The journal leaves the plan as it is. -/
lemma recordCalibration_leads (tally : Tally Rat) (t : Rat) :
    Leads (Underway setup : Annealer Rat ρ → Prop) (recordCalibration setup tally t)
      (fun _ => Underway setup) (fun _ => False) := by
  refine Leads.bind (Leads.forM fun term _ => note_leads (Tempered setup) _) fun _ => ?_
  refine Leads.bind Leads.get fun a => Leads.fact fun ha => ?_
  refine Leads.bind (Leads.ofExcept_ok ⟨_, Tally.total_eq_ok ha.1.2.norms _⟩ fun _ _ h => h)
    fun cost => ?_
  exact note_leads (Tempered setup) _

section Leads

variable [Transcendental Rat] (hregular : setup.Regular)

include hregular

/-- From a scored plan, norms and a temperature are found, and the plan stays scored. -/
lemma gauge_leads (samples : List (PerTerm Rat)) :
    Leads (Underway setup : Annealer Rat ρ → Prop) (gauge setup samples) (fun _ => Underway setup)
      (fun _ => False) := by
  refine Leads.bind (onPlan_total (Tempered setup) (Leads.modify (Q := fun _ => Plan.Scored)
    fun p hp => ⟨hp.1, hp.2.setNorms samples⟩)) fun _ => ?_
  refine Leads.bind Leads.get fun a => Leads.fact fun ha => ?_
  refine Leads.bind (Leads.ofExcept_ok (mapM_exists_ok fun s _ =>
    Tally.costOf_eq_ok ha.1.2.norms _ s.toList) fun _ _ h => h) fun costs => ?_
  obtain ⟨t, ht, hfloor⟩ := hregular.start costs
  simp only [ht, Edit.ofExcept, pure_bind]
  refine Leads.bind (Leads.modify (Q := fun _ => Underway setup) fun b hb => ⟨hb.1, ?_⟩)
    fun _ => Leads.pure fun _ h => h
  rintro _ ⟨⟩
  exact hfloor

variable (hsetup : setup.Fair)

include hsetup

/-- Going back to where scored plans have been keeps an annealer underway. -/
lemma reopen_leads {s : Snapshot Rat} (hs : s.PastOrigin) :
    Maintains (Underway setup : Annealer Rat ρ → Prop) (reopen setup s) := by
  refine Leads.bind (onPlan_leads (Tempered setup)
      (Plan.onLayout_accounted (Layout.load_seated hs))) fun _ => ?_
  refine Leads.bind (onPlan_total (Tempered setup) (Plan.evaluate_scored hsetup hregular true))
    fun _ => ?_
  exact onPlan_total (Tempered setup) (Leads.modify (Q := fun _ => Plan.Scored)
    fun _ hq => ⟨hq.1, hq.2.forgotten⟩)

variable [DrawSource ρ Rat]

variable (hsize : known.length = setup.design.blocks.length)

include hsize

/-- What keeps the annealer going after the walk of a calibration, keeps it going in the
calibration. -/
lemma opened_leads {β : Type} {f : Snapshot Rat → List (PerTerm Rat) → Edit Rat (Annealer Rat ρ) β}
    (count : Nat)
    (hf : ∀ (s : Snapshot Rat) samples, s.PastOrigin →
      Maintains (Underway setup) (f s samples)) :
    Leads (Openable setup known) (do
        let opening ← opening setup
        let samples ← onDrawn (walk setup count)
        f opening samples)
      (fun _ => Underway setup) (Underway setup) := by
  have hopening : Leads (Openable setup known : Annealer Rat ρ → Prop) (opening setup)
      (fun s a => a.Underway setup ∧ s.PastOrigin) (fun _ => False) := by
    refine Leads.bind (installed_leads hsetup hsize) fun _ => Leads.bind packed_leads fun _ => ?_
    refine Leads.bind Leads.get fun a => Leads.fact fun ha => ?_
    refine Leads.bind (onPlan_total (Tempered setup) (Plan.evaluate_scored hsetup hregular true))
      fun _ => ?_
    exact Leads.pure fun _ hb => ⟨hb, Layout.Seated.snapshot ha.1.1⟩
  refine Leads.bind hopening.of_total fun s => Leads.fact fun hs => ?_
  exact Leads.bind (onDrawn_leads (Q := fun _ => Plan.Scored) (E := Plan.Scored) (Tempered setup)
    (walk_leads (Plan.perturb_scored hsetup hregular true) count)) fun samples => hf s samples hs

/-- Calibration keeps an annealer going, whether it succeeds or fails. -/
lemma calibrate_underway :
    Leads (Openable setup known : Annealer Rat ρ → Prop) (calibrate setup) (fun _ => Underway setup)
      (Underway setup) := by
  rw [calibrate_eq]
  refine opened_leads hregular hsetup hsize _ fun s samples hs => ?_
  refine Leads.bind (gauge_leads hregular samples).of_total fun g => ?_
  exact Leads.bind (reopen_leads hregular hsetup hs) fun _ =>
    (recordCalibration_leads g.1 g.2).of_total

/-- **At every stage of a calibration the annealer is weighed**, also when a move
of its walk fails. -/
theorem calibrateUpTo_weighed (stage : Stage) {a : Annealer Rat ρ} (ha : a.Openable setup known) :
    ((calibrateUpTo setup stage).after a).Weighed setup := by
  have hinstalled := installed_leads (ρ := ρ) hsetup hsize
  have hweighed : ∀ {edit : Edit Rat (Annealer Rat ρ) Unit},
      Leads (Openable setup known) edit (fun _ => Underway setup) (Underway setup) →
      (edit.after a).Weighed setup :=
    fun h => (h.after ha : Underway setup _).weighed hsetup
  cases stage with
  | installed => exact (hinstalled.of_total.after ha : Openable setup known _).weighed hsetup
  | packed => exact hweighed (Leads.bind hinstalled.of_total fun _ => packed_leads.of_total)
  | walking moves =>
      exact hweighed (opened_leads hregular hsetup hsize moves fun _ _ _ => Leads.pure fun _ h => h)
  | gauged =>
      refine hweighed (opened_leads hregular hsetup hsize _ fun _ samples _ => ?_)
      exact Leads.bind (gauge_leads hregular samples).of_total fun _ => Leads.pure fun _ h => h
  | back =>
      refine hweighed (opened_leads hregular hsetup hsize _ fun s samples hs => ?_)
      exact Leads.bind (gauge_leads hregular samples).of_total fun _ =>
        reopen_leads hregular hsetup hs

end Leads

end Annealer

end BlockPlan
