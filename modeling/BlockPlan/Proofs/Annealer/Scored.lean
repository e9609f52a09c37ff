import BlockPlan.Proofs.Annealer.Seated
import BlockPlan.Proofs.Annealer.Setup
import BlockPlan.Proofs.Cooling.Start
import BlockPlan.Proofs.Cost.Sign

/-!
# Plans without a value below zero

Whatever is divided by while an annealer calibrates and runs lies above zero: the area of the
outline, the norms of the terms, and the temperatures, which do not fall below their floor.  Raw
values are those of seated blocks, none of which lies below zero, and so neither does a cost.

What keeps this up is that a plan is *scored*: its blocks are seated, its norms lie above zero, and
no raw value lies below, neither now nor in the record of the last move.  All operations of a plan
keep it scored, whether they succeed or fail, and whether or not blocks have been stretched.

* `Setup.Regular`, **`Setup.ofDesign_regular`** — what holds of a setup once and for all.
* `Plan.Weighed` — plans without a value below zero.
* `Plan.Accounted`, `Plan.Scored` — what keeps plans weighed.
* **`Plan.perturb_scored`**, **`Plan.keeps_scored`** — the operations of a plan keep it scored.
-/

namespace BlockPlan

open Edit (Leads Maintains)

variable {ρ : Type} {setup : Setup Rat}

/-! ## What holds once and for all -/

/-- What a setup keeps out of the way of the arithmetic, whatever is done to its plan. -/
structure Setup.Regular [Transcendental Rat] (setup : Setup Rat) : Prop where
  outline : 0 < setup.objective.outlineArea
  /-- No term of a packed layout lies below zero, wherever its blocks stood and whether or not they
  fit the outline. -/
  packed : ∀ l : Layout Rat, l.Coherent → (∀ b ∈ l.blocks, 0 ≤ b.width ∧ 0 ≤ b.height) → ∀ t,
    ∃ v, setup.objective.measure l.pack t = .ok v ∧ 0 ≤ v
  /-- Nor does a term of blocks that stand where packing may have put them. -/
  seated : ∀ l : Layout Rat, l.Seated → ∀ t, ∃ v, setup.objective.measure l t = .ok v ∧ 0 ≤ v
  floor : 0 < setup.schedule.floor
  /-- The acceptances of a level are divided by the number of its trials. -/
  trials : 0 < setup.schedule.trials.toNat
  /-- The mean change of costs is taken of one change at least. -/
  changes : ∀ costs : List Rat, 2 ≤ costs.length → 0 < (gaps costs).length
  /-- The logarithm is taken of a probability between zero and one. -/
  probability : 0 < Scalar.smaller setup.schedule.initialAcceptance acceptanceLimit ∧
    Scalar.smaller setup.schedule.initialAcceptance acceptanceLimit < 1
  /-- Every walk has an initial temperature, and it does not lie below the floor. -/
  start : ∀ costs, ∃ t,
    startTemperature costs setup.schedule.initialAcceptance setup.schedule.floor = .ok t ∧
    setup.schedule.floor ≤ t
  /-- Nor does the temperature of any level. -/
  level : ∀ (index : Nat) (initial : Rat), ∃ t, setup.schedule.temperatureAt index initial = .ok t ∧
    setup.schedule.floor ≤ t

/-- The weights of the nets are those of the design. -/
lemma Setup.ofDesign_nets {d : Design Rat} {settings : Settings Rat} {plan : Plan Rat}
    (hmade : ofDesign d settings = .ok (setup, plan)) (hnets : ∀ n ∈ d.nets, 0 ≤ n.weight) :
    ∀ n ∈ setup.objective.nets, 0 ≤ n.weight := by
  rwa [(Objective.ofDesign_resolved (ofDesign_iff.mp hmade).objective).1.1]

/-- No term of seated blocks lies below zero if no net has a negative weight. -/
lemma Setup.ofDesign_seated {d : Design Rat} {settings : Settings Rat} {plan : Plan Rat}
    (hmade : ofDesign d settings = .ok (setup, plan)) (hnets : ∀ n ∈ d.nets, 0 ≤ n.weight)
    {l : Layout Rat} (hl : l.Seated) (t : Term) :
    ∃ v, setup.objective.measure l t = .ok v ∧ 0 ≤ v := by
  obtain ⟨hwidth, hheight⟩ := ofDesign_outline hmade
  exact Objective.measure_nonneg hwidth hheight (ofDesign_nets hmade hnets)
    (fun b hb => (hl b hb).max_nonneg) t

/-- **A setup that is made of a design with nets of no negative weight is regular.** -/
theorem Setup.ofDesign_regular [Transcendental Rat] {d : Design Rat} {settings : Settings Rat}
    {plan : Plan Rat} (hmade : ofDesign d settings = .ok (setup, plan))
    (hnets : ∀ n ∈ d.nets, 0 ≤ n.weight)
    (hlog : ∀ q : Rat, 0 < q → q < 1 → Transcendental.log q ≠ 0) : setup.Regular := by
  obtain ⟨hwidth, hheight⟩ := ofDesign_outline hmade
  have hschedule := ofDesign_sensible hmade
  have hacceptance := hschedule.acceptance_pos
  have htrials := hschedule.trials
  constructor
  case outline => exact mul_pos hwidth hheight
  case packed =>
    intro l hl hsides
    exact Objective.measure_pack_nonneg hwidth hheight (ofDesign_nets hmade hnets) hl hsides
  case seated =>
    intro l hl
    exact ofDesign_seated hmade hnets hl
  case floor => exact hschedule.floor
  case trials => omega
  case changes =>
    intro costs hcosts
    match costs, hcosts with
    | _ :: _ :: _, _ => exact Nat.succ_pos _
  case probability => exact startProbability_mem hacceptance
  case start =>
    intro costs
    obtain ⟨t, ht⟩ := startTemperature_eq_ok hlog hacceptance costs setup.schedule.floor
    exact ⟨t, ht, floor_le_startTemperature ht⟩
  case level =>
    intro index initial
    exact Schedule.temperatureAt_eq_ok hschedule index initial

/-! ## Scored plans -/

/-- A record of a move that names no point to the left of the origin or below, and no raw value
below zero. -/
structure Move.Nonneg (m : Move Rat) : Prop where
  moved : ∀ o ∈ m.moved, 0 ≤ o.x ∧ 0 ≤ o.y
  raw : ∃ raw : PerTerm Rat, m.raw = raw.toList ∧ ∀ t, 0 ≤ raw.get t

namespace Plan

variable {p : Plan Rat}

/-- A plan whose norms lie above zero, and whose raw values and cost do not lie below. -/
structure Weighed (setup : Setup Rat) (p : Plan Rat) : Prop where
  norms : ∀ t, 0 < p.tally.norm.get t
  raw : ∀ t, 0 ≤ p.tally.raw.get t
  cost : ∃ cost, p.cost setup = .ok cost ∧ 0 ≤ cost

/-- A plan whose norms lie above zero, and no raw value of which lies below, neither now nor in the
record of its last move. -/
structure Accounted (p : Plan Rat) : Prop where
  norms : p.tally.PositiveNorms
  raw : p.tally.Nonneg
  lastMove : ∀ m, p.lastMove = some m → m.Nonneg

/-- Such a plan with seated blocks. -/
abbrev Scored (p : Plan Rat) : Prop := p.layout.Seated ∧ p.Accounted

/-- What can have been kept of a scored plan. -/
structure KeptScored (k : Kept Rat) : Prop where
  points : k.layout.PastOrigin
  raw : ∀ t, 0 ≤ k.raw.get t

lemma Accounted.weighed (h : p.Accounted) (hsetup : setup.Fair) : p.Weighed setup :=
  ⟨h.norms, h.raw, Tally.total_nonneg h.norms h.raw hsetup.weights_nonneg⟩

lemma Accounted.forgotten (h : p.Accounted) : Accounted { p with lastMove := none } :=
  ⟨h.norms, h.raw, by simp⟩

lemma Accounted.setNorms (h : p.Accounted) (samples : List (PerTerm Rat)) :
    Accounted { p with tally := p.tally.setNorms samples } :=
  ⟨h.norms.setNorms samples, h.raw.setNorms samples, h.lastMove⟩

/-- The accounts do not depend on the layout. -/
lemma onLayout_accounted {β : Type} {A C : Layout Rat → Prop} {B : β → Layout Rat → Prop}
    {edit : Edit Rat (Layout Rat) β} (h : Leads A edit B C) :
    Leads (fun p => A p.layout ∧ p.Accounted) (onLayout edit)
      (fun v p => B v p.layout ∧ p.Accounted) (fun p => C p.layout ∧ p.Accounted) := by
  rintro p ⟨hlayout, haccounted⟩
  have hrun := h p.layout hlayout
  simp only [onLayout, Edit.run_within]
  cases hr : edit.run p.layout with
  | ok v l =>
      rw [hr] at hrun
      exact ⟨hrun, haccounted.norms, haccounted.raw, haccounted.lastMove⟩
  | error e l =>
      rw [hr] at hrun
      exact ⟨hrun, haccounted.norms, haccounted.raw, haccounted.lastMove⟩

/-- Taking a move back keeps a plan scored. -/
lemma restore_scored : Maintains Scored (restore (α := Rat)) := by
  refine Maintains.read fun p hp => ?_
  split
  · exact Leads.pure fun _ h => h
  · rename_i m hm
    obtain ⟨hmoved, raw, hraw, hnonneg⟩ := hp.2.lastMove m hm
    refine Leads.bind (onLayout_accounted (Layout.revert_keeps Block.setShape_seated _)) fun _ => ?_
    refine Leads.bind (onLayout_accounted (C := Layout.Seated)
      (Leads.modify (Q := fun _ => Layout.Seated) fun _ hl => Layout.Seated.restore hl hmoved))
        fun _ => ?_
    refine Leads.bind (Leads.modify (Q := fun _ => Scored) fun q hq =>
        ⟨hq.1, hq.2.norms, ?_, hq.2.lastMove⟩)
      fun _ => Leads.modify fun _ hq => ⟨hq.1, hq.2.forgotten⟩
    simp only [Tally.Nonneg, Tally.load, hraw, PerTerm.overwrite_toList]
    exact hnonneg

/-- Loading what was kept of a scored plan keeps another one scored. -/
lemma load_scored {k : Kept Rat} (hk : KeptScored k) : Maintains Scored (load k) := by
  refine Leads.bind (onLayout_accounted (Layout.load_seated hk.points)) fun _ => ?_
  refine Leads.bind (Leads.modify (Q := fun _ => Scored) fun q hq =>
      ⟨hq.1, hq.2.norms, hk.raw, hq.2.lastMove⟩)
    fun _ => Leads.modify fun _ hq => ⟨hq.1, hq.2.forgotten⟩

section Regular

variable [Transcendental Rat] (hsetup : setup.Fair) (hregular : setup.Regular)

include hsetup hregular

/-- Measuring does not fail, and keeps a plan scored. -/
lemma evaluate_scored (everything : Bool) :
    Leads Scored (evaluate setup everything) (fun _ => Scored) (fun _ => False) := by
  refine Leads.of_ok fun p hp =>
    ⟨(), _, run_evaluate hsetup everything p, hp.1, hp.2.norms, fun t => ?_, hp.2.lastMove⟩
  simp only [Tally.measured, PerTerm.get_ofFn]
  split_ifs
  · exact Objective.value_nonneg hsetup.area_ne (hregular.seated p.layout hp.1 t)
  · exact hp.2.raw t

variable [DrawSource ρ Rat]

/-- **A random move keeps a plan scored.** -/
theorem perturb_scored (everything : Bool) :
    Maintains (fun t : Drawn (Plan Rat) ρ => t.state.Scored) (perturb setup everything) := by
  refine perturb_leads (fun _ h => h) fun kind => Maintains.read fun t ht => ?_
  refine Leads.bind ((Layout.makeMove_keeps Block.setShape_seated _ _ kind).within (fun _ h => h.1)
    fun _ _ h hl => ⟨hl, h.2.norms, h.2.raw, h.2.lastMove⟩) fun step => ?_
  have hrepack : Leads Scored (onLayout (Layout.repackFrom step.touched))
      (fun moved q => q.Scored ∧ ∀ o ∈ moved, 0 ≤ o.x ∧ 0 ≤ o.y) Scored :=
    (onLayout_accounted (Layout.repackFrom_seated _)).mono (fun _ h => h)
      (fun _ q hq => ⟨⟨hq.1.1, hq.2⟩, hq.1.2⟩) fun _ h => h
  refine Leads.onState (Leads.bind hrepack fun moved => Leads.fact fun hmoved => ?_)
  refine Leads.bind (evaluate_scored hsetup hregular everything).of_total fun _ =>
    Leads.modify fun q hq => ?_
  -- the record names the points before the move, and the raw values
  refine ⟨hq.1, hq.2.norms, hq.2.raw, ?_⟩
  rintro _ ⟨⟩
  exact ⟨hmoved, t.state.tally.raw, rfl, ht.2.raw⟩

/-- **The operations of a plan keep it scored**, whether they succeed or fail. -/
theorem keeps_scored :
    (space setup : SearchSpace Rat (Plan Rat) ρ (Kept Rat)).Keeps Scored KeptScored where
  perturb := perturb_scored hsetup hregular false
  restore := restore_scored
  keep := fun _ h => ⟨Layout.Seated.snapshot h.1, h.2.raw⟩
  load := fun _ hk => load_scored hk

end Regular

end Plan

end BlockPlan
