import BlockPlan.Proofs.Annealer.Align
import BlockPlan.Proofs.Annealer.Fill
import BlockPlan.Proofs.Annealer.Keyed
import BlockPlan.Proofs.Annealer.Runs
import BlockPlan.Proofs.Search.Faults

/-!
# How keyed plans fail

All that is done to a keyed plan keeps it keyed, so that what is looked up on the way is there.  It
fails in one way only: when it would turn a hard block that lists one orientation several times and
no other.

* `Block.Repeats` — a block that cannot be turned, however it stands.
* **`Plan.Keyed.failsOnly`** — how the operations of a keyed plan fail.
* `Plan.fill_keyed`, `Plan.align_keyed` — filling and aligning keep a plan keyed, and do not fail.
* `Plan.Clean` — what calibration and runs leave when they succeed.
* **`anneal_keyed`**, **`anneal_failsOnly`** — runs keep a plan keyed, and how they fail.
-/

namespace BlockPlan

variable {ρ : Type}

/-! ## Blocks that cannot be turned -/

/-- Whether a block lists several orientations that are all the same. -/
def Block.Repeats {α : Type} (b : Block α) : Prop :=
  match b.form with
  | .hard _ _ allowed _ => 2 ≤ allowed.length ∧ ∀ o ∈ allowed, ∀ o' ∈ allowed, o = o'
  | .soft .. => False

/-- A block that cannot be turned lists several orientations that are all the same. -/
lemma Block.Stuck.repeats {α : Type} {b c : Block α} (h : c.Stuck) (hmakeup : c.makeup = b.makeup) :
    b.Repeats := by
  obtain ⟨_, cform, _, _, _, _, _⟩ := c
  obtain ⟨_, bform, _, _, _, _, _⟩ := b
  simp only [makeup, Prod.mk.injEq] at hmakeup
  obtain ⟨-, -, hmenu⟩ := hmakeup
  cases cform with
  | soft candidates index => exact h.elim
  | hard w hh allowed o =>
      obtain ⟨hlength, hsame⟩ := h
      cases bform <;> cases hmenu
      exact ⟨hlength, fun o ho o' ho' => (hsame o ho).trans (hsame o' ho').symm⟩

/-- A block that lists every orientation once repeats none. -/
lemma Block.Varied.not_repeats {α : Type} {b : Block α} (h : b.Varied) : ¬ b.Repeats := by
  obtain ⟨_, form, _, _, _, _, _⟩ := b
  cases form with
  | soft candidates index => exact fun hrepeats => hrepeats
  | hard w hh allowed o =>
      rintro ⟨hlength, hsame⟩
      have hfirst : allowed[0] = allowed[1] := hsame _ (List.getElem_mem _) _ (List.getElem_mem _)
      exact absurd ((List.Nodup.getElem_inj_iff h).mp hfirst) (by omega)

namespace Plan

variable {setup : Setup Rat} {known : Layout.Makeups Rat} {p : Plan Rat}

/-- A move is stuck only if some block repeats an orientation. -/
lemma Keyed.repeats_of_stuck [DrawSource ρ Rat] {blocks : List (Block Rat)}
    (h : p.Keyed (blocks.map Block.makeup)) {r : ρ} (hstuck : p.Stuck setup r) :
    ∃ b ∈ blocks, b.Repeats := by
  obtain ⟨-, i, c, -, hc, hstuck⟩ := hstuck
  have hmem : c.makeup ∈ blocks.map Block.makeup :=
    h.layout.makeups ▸ List.mem_map_of_mem (List.mem_of_getElem? hc)
  obtain ⟨b, hb, hmakeup⟩ := List.mem_map.mp hmem
  exact ⟨b, hb, hstuck.repeats hmakeup.symm⟩

/-! ## The operations of a keyed plan -/

/-- The one fault of a task: a number below zero is to be drawn, and `B`. -/
def Hopeless (B : Prop) (e : Fault Rat) : Prop := e = .emptyDrawRange ∧ B

section Operations

variable [DrawSource ρ Rat] [LawfulDraws ρ Rat] {B : Prop} (hsetup : setup.Fair)
  (hB : ∀ (p : Plan Rat) (r : ρ), p.Keyed known → p.Stuck setup r → B)

include hsetup

/-- Whether it succeeds or fails, a move keeps a plan keyed; it fails only if it is stuck. -/
lemma perturb_keyed (everything : Bool)
    (hB : ∀ (p : Plan Rat) (r : ρ), p.Keyed known → p.Stuck setup r → B) :
    Edit.Leads (fun t : Drawn (Plan Rat) ρ => t.state.Keyed known) (perturb setup everything)
      (fun _ t => t.state.Keyed known) (fun t => t.state.Keyed known ∧ B) := by
  rintro ⟨p, r⟩ h
  by_cases hstuck : p.Stuck setup r
  · obtain ⟨r', hrun⟩ := run_perturb_stuck h.norms everything hstuck
    rw [hrun]
    exact ⟨h, hB p r h hstuck⟩
  · obtain ⟨q, r', hrun, hq, -⟩ := run_perturb_keyed hsetup h everything hstuck
    rw [hrun]
    exact hq

include hB

lemma perturb_failsOnly (everything : Bool) :
    Edit.FailsOnly (fun t : Drawn (Plan Rat) ρ => t.state.Keyed known) (perturb setup everything)
      (Hopeless B) := by
  rintro ⟨p, r⟩ h e t hrun
  by_cases hstuck : p.Stuck setup r
  · obtain ⟨r', hfails⟩ := run_perturb_stuck h.norms everything hstuck
    rw [hfails] at hrun
    cases hrun
    exact ⟨rfl, hB p r h hstuck⟩
  · obtain ⟨q, r', hok, -⟩ := run_perturb_keyed hsetup h everything hstuck
    rw [hok] at hrun
    cases hrun

omit hB hsetup [DrawSource ρ Rat] [LawfulDraws ρ Rat] in
/-- Loading what was kept of a keyed plan leads to a sound one, with no move to take back. -/
lemma load_keyed {k : Kept Rat} (hk : KeptKeyed known k) :
    Edit.Leads (Keyed known) (load k) (fun _ p => p.Sound known ∧ p.lastMove = none)
      (fun _ => False) := by
  obtain ⟨q, hq, rfl⟩ := hk
  refine Edit.Leads.of_ok fun p h => ⟨(), _, run_load_keyed h.layout.makeups hq, ?_, rfl⟩
  exact ⟨hq.inShape, h.norms, by simp⟩

omit hB hsetup [DrawSource ρ Rat] [LawfulDraws ρ Rat] in
lemma Sound.keyed (h : p.Sound known) (hlast : p.lastMove = none) : p.Keyed known :=
  ⟨h.layout.keyed, h.norms, by simp [hlast]⟩

/-- **The operations of a plan keep it keyed**, and fail only when a move is stuck. -/
theorem Keyed.failsOnly :
    (space setup : SearchSpace Rat (Plan Rat) ρ (Kept Rat)).FailsOnly (Keyed known)
      (KeptKeyed known) (Hopeless B) where
  perturb := (perturb_keyed hsetup false hB).mono (fun _ h => h) (fun _ _ h => h) fun _ h => h.1
  restore := restore_keyed.of_total
  keep := fun p h => ⟨p, h.layout, rfl⟩
  load := fun _ hk =>
    ((load_keyed hk).mono (fun _ h => h) (fun _ _ h => h.1.keyed h.2) fun _ h => h).of_total
  cost := fun _ h => ⟨_, Tally.total_eq_ok h.norms _⟩
  perturb_failsOnly := perturb_failsOnly hsetup hB false
  restore_failsOnly := restore_keyed.failsOnly
  load_failsOnly := fun _ hk => (load_keyed hk).failsOnly

end Operations

/-- A sound plan whose terms are all measured, with no move to take back: what calibration and runs
leave. -/
structure Clean (setup : Setup Rat) (known : Layout.Makeups Rat) (p : Plan Rat) : Prop where
  sound : p.Sound known
  measured : ∀ t, p.tally.raw.get t = setup.objective.value p.layout t
  lastMove : p.lastMove = none

/-! ## Filling and aligning -/

lemma evaluate_keyed (hsetup : setup.Fair) (everything : Bool) :
    Edit.Leads (Keyed known) (evaluate setup everything) (fun _ => Keyed known) (fun _ => False) :=
  Edit.Leads.of_ok fun p h =>
    ⟨(), _, run_evaluate hsetup everything p, h.layout, h.norms, h.lastMove⟩

/-- Growing changes neither the makeup nor the shape key of a block. -/
lemma rekeyed_of_grown {width height : Rat} {b₀ b : Block Rat} (h₀ : b₀.Lists b₀.shapeKey)
    (h : b₀.GrownFrom width height b) : Block.Rekeyed b₀ b := by
  obtain ⟨x, y, w, hh, rfl⟩ := h.stretched
  exact Block.Rekeyed.of_same h₀ rfl rfl

lemma rekeyed_of_moved {b₀ b : Block Rat} (h₀ : b₀.Lists b₀.shapeKey) (h : b₀.MovedFrom b) :
    Block.Rekeyed b₀ b := by
  rcases h with rfl | ⟨-, x, y, rfl⟩
  · exact Block.Rekeyed.of_same h₀ rfl rfl
  · exact Block.Rekeyed.of_same h₀ rfl rfl

/-- Every block of a list is related to one of another list if all of those have a property. -/
lemma forall₂_of_forall {β γ : Type} {C : β → Prop} {R S : β → γ → Prop} {xs : List β} {ys : List γ}
    (hC : ∀ x ∈ xs, C x) (h : List.Forall₂ R xs ys) (himp : ∀ x y, C x → R x y → S x y) :
    List.Forall₂ S xs ys := by
  induction h with
  | nil => exact .nil
  | cons hxy _ ih =>
      exact .cons (himp _ _ (hC _ (by simp)) hxy) (ih fun x hx => hC x (by simp [hx]))

lemma fill_keyed (hsetup : setup.Fair) (hwidth : 0 < setup.objective.outlineWidth)
    (hheight : 0 < setup.objective.outlineHeight) :
    Edit.Leads (Keyed known) (fill setup) (fun _ => Keyed known) (fun _ => False) := by
  refine Edit.Leads.of_ok fun p h => ⟨(), _, run_fill hsetup p, ?_, h.norms, by simp⟩
  exact h.layout.setBlocks (forall₂_of_forall h.layout.lists
    (Objective.fillDeadSpace_filled hwidth hheight p.layout.blocks).grown
      fun _ _ => rekeyed_of_grown)

lemma layout_keyed_of_moved {l l' : Layout Rat} (h : l.Keyed known) (hpair : l'.pair = l.pair)
    (hblocks : List.Forall₂ Block.MovedFrom l.blocks l'.blocks) : l'.Keyed known := by
  have hkeyed := h.setBlocks (forall₂_of_forall h.lists hblocks fun _ _ => rekeyed_of_moved)
  rwa [← hpair] at hkeyed

lemma align_keyed (hsetup : setup.Fair) (h? v? : Option Rat) :
    Edit.Leads (Keyed known) (align setup h? v?) (fun _ => Keyed known) (fun _ => False) := by
  refine align_leads hsetup h? v? fun p q hp hpair hmoved htally hlast => ?_
  refine ⟨layout_keyed_of_moved hp.layout hpair hmoved, ?_, by simp [hlast]⟩
  rw [htally]
  exact hp.norms

end Plan

namespace Annealer

variable {setup : Setup Rat} {known : Layout.Makeups Rat}

/-! ## Edits of an annealer -/

section Edits

variable {β : Type} {P : Plan Rat → Prop} {F : Fault Rat → Prop}

lemma onRun_failsOnly {edit : Edit Rat (Run Rat (Plan Rat) ρ) β}
    (h : Edit.FailsOnly (fun r => P r.current.state) edit F) :
    Edit.FailsOnly (fun a : Annealer Rat ρ => P a.plan) (onRun edit) F :=
  h.within

lemma onDrawn_failsOnly {edit : Edit Rat (Drawn (Plan Rat) ρ) β}
    (h : Edit.FailsOnly (fun t => P t.state) edit F) :
    Edit.FailsOnly (fun a : Annealer Rat ρ => P a.plan) (onDrawn edit) F :=
  onRun_failsOnly h.within

lemma onPlan_failsOnly {edit : Edit Rat (Plan Rat) β} (h : Edit.FailsOnly P edit F) :
    Edit.FailsOnly (fun a : Annealer Rat ρ => P a.plan) (onPlan edit) F :=
  onDrawn_failsOnly h.within

end Edits

/-! ## Calibrating -/

section Calibrate

variable [DrawSource ρ Rat] {P : Plan Rat → Prop} {B : Prop} {F : Fault Rat → Prop}

lemma walk_failsOnly (h : Calibrates ρ setup known P B)
    (hperturb : Edit.FailsOnly (fun t : Drawn (Plan Rat) ρ => P t.state)
      (Plan.perturb setup true) F)
    (count : Nat) :
    Edit.FailsOnly (fun t : Drawn (Plan Rat) ρ => P t.state) (walk setup count) F := by
  induction count with
  | zero => exact Edit.FailsOnly.pure _
  | succ count ih =>
      refine Edit.FailsOnly.bind hperturb h.perturb fun _ => ?_
      refine Edit.FailsOnly.bind_ok Edit.Leads.get fun _ => Edit.FailsOnly.fact fun _ => ?_
      exact Edit.FailsOnly.bind ih (walk_leads (E := fun p => P p ∧ B) h.perturb count) fun _ =>
        Edit.FailsOnly.pure _

variable [Transcendental Rat]

/-- **Calibration fails as its walk does**, if every walk has an initial temperature. -/
theorem calibrate_failsOnly (hsetup : setup.Fair) (h : Calibrates ρ setup known P B)
    (hperturb : Edit.FailsOnly (fun t : Drawn (Plan Rat) ρ => P t.state)
      (Plan.perturb setup true) F)
    (hstart : ∀ costs, ∃ t, startTemperature costs setup.schedule.initialAcceptance
      setup.schedule.floor = .ok t) :
    Edit.FailsOnly (fun a : Annealer Rat ρ => P a.plan) (calibrate setup) F := by
  let T : Option Rat → Prop := fun _ => True
  refine Edit.FailsOnly.weaken (P := fun a => P a.plan ∧ T a.temperature) ?_
    fun _ ha => ⟨ha, trivial⟩
  refine Edit.FailsOnly.bind_ok (onPlan_total T h.install) fun _ => ?_
  refine Edit.FailsOnly.bind_ok (onPlan_total T (Edit.Leads.of_ok
    (Q := fun _ => P) fun p hp => ⟨(), _, rfl, h.pack p hp⟩)) fun _ => ?_
  refine Edit.FailsOnly.bind_ok Edit.Leads.get fun a => Edit.FailsOnly.fact fun hopening => ?_
  refine Edit.FailsOnly.bind_ok (onPlan_total T h.evaluate) fun _ => ?_
  -- only the walk may fail
  refine Edit.FailsOnly.bind ((onDrawn_failsOnly (walk_failsOnly h hperturb _)).weaken
      fun _ ha => ha.1)
    (onDrawn_leads (E := fun p => P p ∧ B) T (walk_leads (E := fun p => P p ∧ B) h.perturb _))
    fun samples => ?_
  refine Edit.FailsOnly.bind_ok (onPlan_total T (Edit.Leads.modify (Q := fun _ => P)
    fun p hp => h.setNorms p samples hp)) fun _ => ?_
  refine Edit.FailsOnly.bind_ok Edit.Leads.get fun measured =>
    Edit.FailsOnly.fact fun hmeasured => ?_
  refine Edit.FailsOnly.bind_ok (Edit.Leads.ofExcept_ok (mapM_exists_ok fun s _ =>
    Tally.costOf_eq_ok (h.keyed _ hmeasured.1).2 _ s.toList) fun _ _ h => h) fun costs => ?_
  refine Edit.FailsOnly.bind_ok (Edit.Leads.ofExcept_ok (hstart costs) fun _ _ h => h) fun t => ?_
  refine Edit.FailsOnly.bind_ok (Edit.Leads.modify
    (Q := fun _ a => (a.plan.layout.Keyed known ∧ a.plan.tally.PositiveNorms) ∧ T a.temperature)
    fun a ha => ⟨h.keyed _ ha.1, trivial⟩) fun _ => ?_
  refine Edit.FailsOnly.bind_ok (onPlan_total T (loadLayout_leads (h.keyed _ hopening.1).1))
    fun _ => ?_
  refine Edit.FailsOnly.bind_ok (onPlan_total T (evaluate_opened hsetup)) fun _ => ?_
  refine Edit.FailsOnly.bind_ok (onPlan_total T forget_opened) fun _ => ?_
  refine Edit.FailsOnly.bind_ok (Edit.Leads.forM fun term _ => note_leads
    (P := Opened setup a.plan.layout) T _) fun _ => ?_
  refine Edit.FailsOnly.bind_ok Edit.Leads.get fun last => Edit.FailsOnly.fact fun hlast => ?_
  refine Edit.FailsOnly.bind_ok (Edit.Leads.ofExcept_ok
    ⟨_, Tally.total_eq_ok hlast.1.norms _⟩ fun _ _ h => h) fun cost => ?_
  exact (note_leads (P := Opened setup a.plan.layout) T _).failsOnly

end Calibrate

section Runs

variable [DrawSource ρ Rat] [LawfulDraws ρ Rat] {B : Prop} (hsetup : setup.Fair)
  (hsize : known.length = setup.design.blocks.length)

include hsetup hsize

/-- Calibration keeps keyed plans keyed. -/
lemma calibrates_keyed (hB : ∀ (p : Plan Rat) (r : ρ), p.Keyed known → p.Stuck setup r → B) :
    Calibrates ρ setup known (Plan.Keyed known) B where
  keyed := fun _ h => ⟨h.layout, h.norms⟩
  install := by
    refine Edit.Leads.of_ok fun p hp => ?_
    obtain ⟨_, l, hrun, hl⟩ :=
      (installInitial_leads Layout.closed_keyed hsetup hsize).ok hp.layout
    refine ⟨(), { p with layout := l }, ?_, hl, hp.norms, hp.lastMove⟩
    simp only [Plan.onLayout, Edit.run_within, hrun]
  pack := fun _ h => ⟨h.layout.pack, h.norms, h.lastMove⟩
  evaluate := Plan.evaluate_keyed hsetup true
  perturb := Plan.perturb_keyed hsetup true hB
  setNorms := fun _ samples h => ⟨h.layout, h.norms.setNorms samples, h.lastMove⟩

variable [Transcendental Rat]

/-- Calibrating leads from keyed plans to clean ones. -/
lemma calibrate_keyed :
    Edit.Leads (fun a : Annealer Rat ρ => a.plan.Keyed known) (calibrate setup)
      (fun _ a => a.plan.Clean setup known ∧ a.temperature.isSome)
      (fun a => a.plan.Keyed known) := by
  have hopened := calibrate_opened (B := True) hsetup
    (calibrates_keyed (ρ := ρ) hsetup hsize fun _ _ _ _ => trivial) (fun _ _ _ => trivial)
    fun _ => True
  refine hopened.mono (fun _ h => ⟨h, trivial⟩) ?_ fun _ h => h.1.1
  rintro _ a ⟨⟨o, ho, -, hopened⟩, hsome⟩
  have hlayout := ho.layout.inShape
  rw [← hopened.layout] at hlayout
  have hsound : a.plan.Sound known := ⟨hlayout, hopened.norms, by simp [hopened.lastMove]⟩
  exact ⟨⟨hsound, hopened.measured, hopened.lastMove⟩, hsome⟩

/-! ## Running -/

omit hsize in
/-- A search that succeeds leads from keyed plans to clean ones. -/
lemma search_keyed (t : Rat) :
    Edit.Leads (fun a : Annealer Rat ρ => a.plan.Keyed known) (search setup t)
      (fun _ a => a.plan.Clean setup known) (fun a => a.plan.Keyed known) := by
  let T : Option Rat → Prop := fun _ => True
  have hspace := Plan.Keyed.failsOnly hsetup
    fun (p : Plan Rat) (_ : ρ) (_ : p.Keyed known) _ => trivial
  have hloads := Annealing.run_loads hspace.toKeeps
    (L := fun p => p.Sound known ∧ p.lastMove = none) (fun _ h => h.1.keyed h.2)
    (fun _ hk => (Plan.load_keyed hk).of_total) setup.schedule t
  have hclean : Edit.Leads (fun p => p.Sound known ∧ p.lastMove = none) (Plan.evaluate setup true)
      (fun _ => Plan.Clean setup known) (fun _ => False) := by
    refine Edit.Leads.of_ok fun p hp =>
      ⟨(), _, Plan.run_evaluate hsetup true p, ?_, fun t => ?_, hp.2⟩
    · exact ⟨hp.1.layout, hp.1.norms, by simp [hp.2]⟩
    · simp only [Tally.measured, PerTerm.get_ofFn, Bool.true_or, if_true]
  refine Edit.Leads.weaken (P := fun a => a.plan.Keyed known ∧ T a.temperature) ?_
    fun _ ha => ⟨ha, trivial⟩
  refine Edit.Leads.bind
    ((onRun_leads (Q := fun _ p => p.Sound known ∧ p.lastMove = none) T hloads).mono
    (fun _ h => h) (fun _ _ h => h) fun _ h => h.1) fun trace => ?_
  refine Edit.Leads.bind (Edit.Leads.modify
    (Q := fun _ a => (a.plan.Sound known ∧ a.plan.lastMove = none) ∧ T a.temperature)
    fun _ ha => ha) fun _ => ?_
  refine Edit.Leads.bind (onPlan_total T hclean) fun _ => Edit.Leads.bind Edit.Leads.get fun _ => ?_
  exact Edit.Leads.ofExcept (fun _ _ _ h => h.1.1) fun _ _ _ h => h.1.1.sound.keyed h.1.1.lastMove

/-- **A run leads from keyed plans to clean ones when it succeeds**, and to keyed ones when it
fails. -/
theorem anneal_keyed :
    Edit.Leads (fun a : Annealer Rat ρ => a.plan.Keyed known) (anneal setup)
      (fun _ a => a.plan.Clean setup known) (fun a => a.plan.Keyed known) := by
  intro a ha
  cases ht : a.temperature with
  | some t =>
      rw [run_anneal_known ht]
      exact search_keyed hsetup t a ha
  | none =>
      have hcalibrate := calibrate_keyed (ρ := ρ) hsetup hsize a ha
      cases hrun : (calibrate setup).run a with
      | error e b =>
          rw [hrun] at hcalibrate
          rw [run_anneal_error ht hrun]
          exact hcalibrate
      | ok _ b =>
          rw [hrun] at hcalibrate
          obtain ⟨hclean, hsome⟩ := hcalibrate
          obtain ⟨t, hb⟩ := Option.isSome_iff_exists.mp hsome
          rw [run_anneal_calibrated ht hrun hb, run_anneal_known hb]
          exact search_keyed hsetup t b (hclean.sound.keyed hclean.lastMove)

section Faults

variable (hschedule : setup.schedule.Sensible)
  (hB : ∀ (p : Plan Rat) (r : ρ), p.Keyed known → p.Stuck setup r → B)
  (hstart : ∀ costs, ∃ t, startTemperature costs setup.schedule.initialAcceptance
    setup.schedule.floor = .ok t)

include hB

section Search

include hschedule

omit hsize in
/-- A search fails only when a move is stuck. -/
lemma search_failsOnly (t : Rat) :
    Edit.FailsOnly (fun a : Annealer Rat ρ => a.plan.Keyed known) (search setup t)
      (Plan.Hopeless B) := by
  let T : Option Rat → Prop := fun _ => True
  have hspace := Plan.Keyed.failsOnly hsetup hB
  refine Edit.FailsOnly.bind (onRun_failsOnly (Annealing.run_failsOnly hspace hschedule t))
    ((onRun_leads T (Annealing.run_leads hspace.toKeeps setup.schedule t)).weaken
      fun _ ha => ⟨ha, trivial⟩) fun trace => ?_
  refine Edit.FailsOnly.bind_ok (Edit.Leads.modify
    (Q := fun _ a => (a.plan.Keyed known ∧ a.trace = some trace)) fun _ ha =>
    ⟨ha.1, rfl⟩) fun _ => ?_
  refine Edit.FailsOnly.bind_ok (Edit.Leads.of_ok (Q := fun _ a => a.plan.Keyed known ∧
    a.trace = some trace) fun a ha => ?_) fun _ => ?_
  · obtain ⟨_, p, hrun, hp⟩ := (Plan.evaluate_keyed hsetup true).ok ha.1
    refine ⟨(), { a with run := { a.run with current := { a.run.current with state := p } } },
      ?_, hp, ha.2⟩
    have hrun' : (Plan.evaluate setup true).run a.run.current.state = .ok () p := hrun
    simp only [onPlan, onDrawn, onRun, Edit.run_within, hrun']
  refine Edit.FailsOnly.bind_ok Edit.Leads.get fun a => Edit.FailsOnly.fact fun ha => ?_
  refine Edit.FailsOnly.ofExcept fun e he => ?_
  have hcost : a.plan.cost setup = .ok _ := Tally.total_eq_ok ha.1.norms _
  obtain ⟨o, ho, -⟩ := Plan.outcome_eq_ok ha.1.norms hcost trace
  rw [outcome, ha.2, ho] at he
  cases he

end Search

include hstart

lemma calibrate_keyed_failsOnly :
    Edit.FailsOnly (fun a : Annealer Rat ρ => a.plan.Keyed known) (calibrate setup)
      (Plan.Hopeless B) :=
  calibrate_failsOnly hsetup (calibrates_keyed hsetup hsize hB)
    (Plan.perturb_failsOnly hsetup hB true) hstart

include hschedule

/-- **A run fails only when a move is stuck.** -/
theorem anneal_failsOnly :
    Edit.FailsOnly (fun a : Annealer Rat ρ => a.plan.Keyed known) (anneal setup)
      (Plan.Hopeless B) := by
  intro a ha e c hrun
  cases ht : a.temperature with
  | some t =>
      rw [run_anneal_known ht] at hrun
      exact search_failsOnly hsetup hschedule hB t a ha e c hrun
  | none =>
      have hkeyed := calibrate_keyed (ρ := ρ) hsetup hsize a ha
      cases hcalibrate : (calibrate setup).run a with
      | error e' b =>
          rw [run_anneal_error ht hcalibrate] at hrun
          cases hrun
          exact calibrate_keyed_failsOnly hsetup hsize hB hstart a ha _ _ hcalibrate
      | ok _ b =>
          rw [hcalibrate] at hkeyed
          obtain ⟨hclean, hsome⟩ := hkeyed
          obtain ⟨t, hb⟩ := Option.isSome_iff_exists.mp hsome
          rw [run_anneal_calibrated ht hcalibrate hb, run_anneal_known hb] at hrun
          exact search_failsOnly hsetup hschedule hB t b
            (hclean.sound.keyed hclean.lastMove) e c hrun

end Faults

end Runs

end Annealer

end BlockPlan
