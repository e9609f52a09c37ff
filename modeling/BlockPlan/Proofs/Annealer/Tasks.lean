import BlockPlan.Proofs.Annealer.Faults
import BlockPlan.Proofs.Annealer.Undo

/-!
# Tasks for an annealer

Whatever is asked of an annealer after it has been made, in whatever order, and whether it succeeds
or fails: calibrating, moving, taking back, running, filling dead space and aligning.

* `Task`, `Annealer.carryOut`, `Annealer.afterTasks` — the tasks, and what a list of them makes of
  an annealer.
* `carryOut_keyed`, `carryOut_failsOnly` — every task keeps a plan keyed, and how it fails.
* `Plan.Addressed` — all that is looked up in a plan is there.
* **`carryOut_fails`** — the one way in which a task fails, after any tasks.
-/

namespace BlockPlan

variable {ρ : Type}

/-! ## Tasks -/

/-- What is asked of an annealer. -/
inductive Task where
  /-- Calibrate. -/
  | calibrate
  /-- Make a random move. -/
  | perturb
  /-- Take the last move back. -/
  | restore
  /-- Run a whole search. -/
  | run
  /-- Fill the dead space. -/
  | fill
  /-- Align the hard blocks that are nearly flush, with thresholds that may be given. -/
  | align (h? v? : Option Rat)
  deriving DecidableEq, Repr

/-- Whether a task makes random moves. -/
def Task.moves : Task → Bool
  | .calibrate | .perturb | .run => true
  | .restore | .fill | .align _ _ => false

namespace Annealer

variable [DrawSource ρ Rat] [Transcendental Rat]

/-- What a task does. -/
def carryOut (setup : Setup Rat) : Task → Edit Rat (Annealer Rat ρ) Unit
  | .calibrate => calibrate setup
  | .perturb => onDrawn (Plan.perturb setup false)
  | .restore => onPlan Plan.restore
  | .run => do
    let _ ← anneal setup
  | .fill => onPlan (Plan.fill setup)
  | .align h? v? => onPlan (Plan.align setup h? v?)

/-- What a list of tasks makes of an annealer.  A task that fails leaves behind what it has changed
so far. -/
def afterTasks (setup : Setup Rat) (tasks : List Task) (a : Annealer Rat ρ) : Annealer Rat ρ :=
  tasks.foldl (fun a t => (carryOut setup t).after a) a

lemma afterTasks_concat (setup : Setup Rat) (tasks : List Task) (t : Task) (a : Annealer Rat ρ) :
    a.afterTasks setup (tasks ++ [t]) = (carryOut setup t).after (a.afterTasks setup tasks) := by
  rw [afterTasks, List.foldl_append]
  rfl

/-- Whatever every single task keeps, a list of them keeps. -/
lemma afterTasks_keeps {setup : Setup Rat} {I : Annealer Rat ρ → Prop} {tasks : List Task}
    (h : ∀ t ∈ tasks, Edit.Leads I (carryOut setup t) (fun _ => I) I) {a : Annealer Rat ρ}
    (ha : I a) : I (a.afterTasks setup tasks) := by
  induction tasks generalizing a with
  | nil => exact ha
  | cons t rest ih =>
      exact ih (fun t ht => h t (by simp [ht])) ((h t (by simp)).after ha)

section Tasks

variable [LawfulDraws ρ Rat] {setup : Setup Rat} {known : Layout.Makeups Rat} (hsetup : setup.Fair)
  (hsize : known.length = setup.design.blocks.length) (hwidth : 0 < setup.objective.outlineWidth)
  (hheight : 0 < setup.objective.outlineHeight)

include hsetup hsize hwidth hheight

omit hwidth hheight in
/-- Calibrating and running lead from keyed plans to clean ones, when they succeed. -/
lemma carryOut_clean {task : Task} (htask : task = .calibrate ∨ task = .run) :
    Edit.Leads (fun a : Annealer Rat ρ => a.plan.Keyed known) (carryOut setup task)
      (fun _ a => a.plan.Clean setup known) (fun a => a.plan.Keyed known) := by
  rcases htask with rfl | rfl
  · exact (calibrate_keyed hsetup hsize).mono (fun _ h => h) (fun _ _ h => h.1) fun _ h => h
  · exact Edit.Leads.bind (anneal_keyed hsetup hsize) fun _ => Edit.Leads.pure fun _ h => h

/-- **Every task keeps a plan keyed**, whether it succeeds or fails. -/
theorem carryOut_keyed (task : Task) :
    Edit.Leads (fun a : Annealer Rat ρ => a.plan.Keyed known) (carryOut setup task)
      (fun _ a => a.plan.Keyed known) (fun a => a.plan.Keyed known) := by
  have honPlan : ∀ {edit : Edit Rat (Plan Rat) Unit},
      Edit.Leads (Plan.Keyed known) edit (fun _ => Plan.Keyed known) (fun _ => False) →
      Edit.Leads (fun a : Annealer Rat ρ => a.plan.Keyed known) (onPlan edit)
        (fun _ a => a.plan.Keyed known) (fun a => a.plan.Keyed known) := fun h =>
    (onPlan_total (fun _ => True) h).mono (fun _ ha => ⟨ha, trivial⟩) (fun _ _ h => h.1)
      fun _ h => h
  have hclean : ∀ {task : Task}, task = .calibrate ∨ task = .run →
      Edit.Leads (fun a : Annealer Rat ρ => a.plan.Keyed known) (carryOut setup task)
        (fun _ a => a.plan.Keyed known) (fun a => a.plan.Keyed known) := fun htask =>
    (carryOut_clean hsetup hsize htask).mono (fun _ h => h)
      (fun _ _ h => h.sound.keyed h.lastMove) fun _ h => h
  cases task with
  | calibrate => exact hclean (Or.inl rfl)
  | perturb =>
      have hperturb := Plan.perturb_keyed hsetup false
        fun (p : Plan Rat) (_ : ρ) (_ : p.Keyed known) _ => trivial
      exact (onDrawn_leads (Q := fun _ => Plan.Keyed known) (E := Plan.Keyed known) (fun _ => True)
        (hperturb.mono (fun _ h => h) (fun _ _ h => h) fun _ h => h.1)).mono
        (fun _ h => ⟨h, trivial⟩) (fun _ _ h => h.1) fun _ h => h.1
  | restore => exact honPlan Plan.restore_keyed
  | run => exact hclean (Or.inr rfl)
  | fill => exact honPlan (Plan.fill_keyed hsetup hwidth hheight)
  | align h? v? => exact honPlan (Plan.align_keyed hsetup h? v?)

/-- **A task fails only if it makes random moves and one of them is stuck.** -/
theorem carryOut_failsOnly (hschedule : setup.schedule.Sensible) {B : Prop}
    (hB : ∀ (p : Plan Rat) (r : ρ), p.Keyed known → p.Stuck setup r → B)
    (hstart : ∀ costs, ∃ t, startTemperature costs setup.schedule.initialAcceptance
      setup.schedule.floor = .ok t) (task : Task) :
    Edit.FailsOnly (fun a : Annealer Rat ρ => a.plan.Keyed known) (carryOut setup task)
      (fun e => task.moves = true ∧ Plan.Hopeless B e) := by
  have hmoves : ∀ {edit : Edit Rat (Annealer Rat ρ) Unit}, task.moves = true →
      Edit.FailsOnly (fun a => a.plan.Keyed known) edit (Plan.Hopeless B) →
      Edit.FailsOnly (fun a => a.plan.Keyed known) edit
        (fun e => task.moves = true ∧ Plan.Hopeless B e) :=
    fun htask h a ha e b hrun => ⟨htask, h a ha e b hrun⟩
  cases task with
  | calibrate => exact hmoves rfl (calibrate_keyed_failsOnly hsetup hsize hB hstart)
  | perturb => exact hmoves rfl (onDrawn_failsOnly (Plan.perturb_failsOnly hsetup hB false))
  | restore => exact onPlan_failsOnly Plan.restore_keyed.failsOnly
  | run =>
      refine hmoves rfl (Edit.FailsOnly.bind (anneal_failsOnly hsetup hsize hschedule hB hstart)
        (anneal_keyed hsetup hsize) fun _ => Edit.FailsOnly.pure _)
  | fill => exact onPlan_failsOnly (Plan.fill_keyed hsetup hwidth hheight).failsOnly
  | align h? v? => exact onPlan_failsOnly (Plan.align_keyed hsetup h? v?).failsOnly

end Tasks

end Annealer

/-! ## What is looked up -/

namespace Plan

/-- All that is looked up in a plan is there: every draw falls on a kind of move, every block has a
slot in both sequences and a shape of its key, guides and fences belong to blocks, members of nets
have a position, and the record of the last move names blocks, slots and shapes of the plan. -/
structure Addressed (setup : Setup Rat) (p : Plan Rat) : Prop where
  table : setup.table.entries ≠ []
  pair : p.layout.Coherent
  shapes : ∀ b ∈ p.layout.blocks, b.Lists b.shapeKey
  guides : ∀ g ∈ setup.objective.guides, g.1 < p.layout.size
  fences : ∀ f ∈ setup.objective.fences, f.1 < p.layout.size
  members : ∀ n ∈ setup.objective.nets, ∀ member ∈ n.members,
    Names (setup.objective.endPoints p.layout.blocks) member
  lastMove : ∀ m, p.lastMove = some m → m.Fits (p.layout.blocks.map Block.makeup)

end Plan

section OfDesign

variable {d : Design Rat} {settings : Settings Rat} {setup : Setup Rat} {plan : Plan Rat}

/-- The plan to begin with is keyed if every block has a shape that it lists. -/
lemma Setup.ofDesign_keyed (h : ofDesign d settings = .ok (setup, plan))
    (hblocks : ∀ b ∈ d.blocks, b.Lists b.shapeKey) : plan.Keyed (d.blocks.map Block.makeup) := by
  obtain ⟨-, -, -, -, -, -, -, hsame, hcoherent, htally, hlast⟩ := ofDesign_eq_ok h
  rw [← hsame] at hblocks
  have hlayout : plan.layout.Keyed (d.blocks.map Block.makeup) :=
    ⟨hcoherent, hblocks, by rw [hsame]⟩
  refine ⟨hlayout, ?_, by simp [hlast]⟩
  rw [htally]
  exact Tally.positiveNorms_initial

lemma Setup.ofDesign_table (h : ofDesign d settings = .ok (setup, plan)) :
    setup.table.entries ≠ [] :=
  MoveTable.ofShares_ne_nil (ofDesign_iff.mp h).table

lemma Setup.ofDesign_size (h : ofDesign d settings = .ok (setup, plan)) :
    (d.blocks.map Block.makeup).length = setup.design.blocks.length := by
  rw [List.length_map, ofDesign_design h]

/-- Whatever is done to the plan of a design, it stays keyed. -/
lemma Annealer.afterTasks_keyed [DrawSource ρ Rat] [LawfulDraws ρ Rat] [Transcendental Rat]
    (hmade : Setup.ofDesign d settings = .ok (setup, plan))
    (hblocks : ∀ b ∈ d.blocks, b.Lists b.shapeKey) (draws : ρ) (tasks : List Task) :
    ((start plan draws).afterTasks setup tasks).plan.Keyed (d.blocks.map Block.makeup) := by
  obtain ⟨hwidth, hheight⟩ := Setup.ofDesign_outline hmade
  exact afterTasks_keeps (I := fun a => a.plan.Keyed (d.blocks.map Block.makeup))
    (fun t _ => carryOut_keyed (Setup.ofDesign_fair hmade) (Setup.ofDesign_size hmade)
      hwidth hheight t)
    (Setup.ofDesign_keyed hmade hblocks)

/-- All that is looked up in a keyed plan of the blocks of a design is there. -/
lemma Plan.Keyed.addressed {p : Plan Rat} (hmade : Setup.ofDesign d settings = .ok (setup, plan))
    (h : p.Keyed (d.blocks.map Block.makeup)) : p.Addressed setup := by
  obtain ⟨-, -, -, hdesign, hobjective, -⟩ := Setup.ofDesign_eq_ok hmade
  obtain ⟨⟨hnets, hterminals⟩, hguides, hfences⟩ := Objective.ofDesign_resolved hobjective
  have hsize : p.layout.size = d.blocks.length := by rw [h.layout.size, List.length_map]
  have hnames : p.layout.blocks.map (·.name) = d.blockNames := by
    have hmakeups := congrArg (List.map (·.1)) h.layout.makeups
    rwa [List.map_map, List.map_map] at hmakeups
  refine ⟨Setup.ofDesign_table hmade, h.layout.coherent, h.layout.lists, ?_, ?_, ?_, ?_⟩
  · rw [hsize]
    exact hguides
  · rw [hsize]
    exact hfences
  · rw [hnets]
    intro n hn member hmember
    exact Objective.endPoints_of_isKnown hterminals hnames
      (Design.validate_members hdesign n hn member hmember)
  · rw [h.layout.makeups]
    exact h.lastMove

end OfDesign

namespace Annealer

/-- **After any tasks, all that is looked up is there, and a task fails in one way alone:** it makes
a random move, and this would turn a block that lists one orientation several times and no other.
Without such a block every task succeeds, and taking back, filling and aligning always do. -/
theorem carryOut_fails [DrawSource ρ Rat] [LawfulDraws ρ Rat] [Transcendental Rat] {d : Design Rat}
    {settings : Settings Rat} {setup : Setup Rat} {plan : Plan Rat}
    (hmade : Setup.ofDesign d settings = .ok (setup, plan))
    (hblocks : ∀ b ∈ d.blocks, b.Lists b.shapeKey)
    (hlog : ∀ q : Rat, 0 < q → q < 1 → Transcendental.log q ≠ 0) (draws : ρ) (tasks : List Task)
    {a : Annealer Rat ρ} (ha : a = (start plan draws).afterTasks setup tasks) :
    a.plan.Addressed setup ∧
    (∀ task e b, (carryOut setup task).run a = .error e b →
      e = .emptyDrawRange ∧ task.moves = true ∧ ∃ b ∈ d.blocks, b.Repeats) ∧
    (∀ task, task.moves = false ∨ (∀ b ∈ d.blocks, ¬ b.Repeats) →
      ∃ b, (carryOut setup task).run a = .ok () b) ∧
    ((∃ e b, (carryOut setup .perturb).run a = .error e b) ↔
      a.plan.Stuck setup a.run.current.draws) := by
  have hsetup := Setup.ofDesign_fair hmade
  obtain ⟨hwidth, hheight⟩ := Setup.ofDesign_outline hmade
  have hkeyed : a.plan.Keyed (d.blocks.map Block.makeup) := by
    rw [ha]
    exact afterTasks_keyed hmade hblocks draws tasks
  have hfails : ∀ task e b, (carryOut setup task).run a = .error e b →
      e = .emptyDrawRange ∧ task.moves = true ∧ ∃ b ∈ d.blocks, b.Repeats := by
    intro task e b hrun
    obtain ⟨hmoves, he, hrepeats⟩ := carryOut_failsOnly hsetup (Setup.ofDesign_size hmade) hwidth
      hheight (Setup.ofDesign_sensible hmade) (fun (p : Plan Rat) (r : ρ) hp => hp.repeats_of_stuck)
      (fun costs => startTemperature_eq_ok hlog hsetup.acceptance_pos costs _)
      task a hkeyed e b hrun
    exact ⟨he, hmoves, hrepeats⟩
  refine ⟨hkeyed.addressed hmade, hfails, ?_, ?_⟩
  · intro task htask
    cases hrun : (carryOut setup task).run a with
    | ok _ b => exact ⟨b, rfl⟩
    | error e b =>
        obtain ⟨-, hmoves, c, hc, hrepeats⟩ := hfails task e b hrun
        rcases htask with htask | htask
        · rw [hmoves] at htask
          cases htask
        · exact absurd hrepeats (htask c hc)
  · have hrun : ∀ {result}, (Plan.perturb setup false).run a.run.current = result →
        ((∃ e b, (carryOut setup .perturb).run a = .error e b) ↔ ∃ e t, result = .error e t) := by
      rintro result rfl
      simp only [carryOut, onDrawn, onRun, Edit.run_within]
      cases (Plan.perturb setup false).run a.run.current <;> simp
    by_cases hstuck : a.plan.Stuck setup a.run.current.draws
    · obtain ⟨r', hfails⟩ := Plan.run_perturb_stuck hkeyed.norms false hstuck
      exact iff_of_true ((hrun hfails).mpr ⟨_, _, rfl⟩) hstuck
    · obtain ⟨q, r', hok, -⟩ := Plan.run_perturb_keyed hsetup hkeyed false hstuck
      refine iff_of_false ?_ hstuck
      intro h
      obtain ⟨e, t, hresult⟩ := (hrun hok).mp h
      cases hresult

/-- With a block that lists one orientation twice, a move fails on a draw that turns it, and filling
does not. -/
theorem carryOut_fails_repeating :
    ∃ setup plan, Setup.ofDesign Session.repeating Session.halfTurns = .ok (setup, plan) ∧
      let _ := Transcendental.tangent
      ∃ a : Annealer Rat Stream,
        a = (start plan (Stream.steady (3 / 4) (by norm_num) 0)).afterTasks setup [.restore] ∧
        a.plan.Addressed setup ∧ (∃ e b, (carryOut setup .perturb).run a = .error e b) ∧
        ∃ b, (carryOut setup .fill).run a = .ok () b := by
  obtain ⟨setup, plan, hmade, htable, hlayout⟩ := Session.repeating_made
  refine ⟨setup, plan, hmade, ?_⟩
  let _ := Transcendental.tangent
  let first : Annealer Rat Stream := start plan (Stream.steady (3 / 4) (by norm_num) 0)
  obtain ⟨haddressed, -, hok, hperturb⟩ := carryOut_fails hmade
    (fun b hb => (Session.repeating_wellFormed b hb).showsShape.lists)
    (fun q _ hq => sub_ne_zero.mpr hq.ne) (Stream.steady (3 / 4) (by norm_num) 0) [.restore]
    (a := first.afterTasks setup [.restore]) rfl
  refine ⟨_, rfl, haddressed, hperturb.mpr ?_, hok .fill (Or.inl rfl)⟩
  -- there is no move to take back yet
  have hfirst : first.afterTasks setup [.restore] = first := by
    obtain ⟨-, -, -, -, -, -, -, -, -, -, hlast⟩ := Setup.ofDesign_eq_ok hmade
    have hrestore : Plan.restore.run first.run.current.state = .ok () first.run.current.state :=
      Plan.restore_of_none hlast
    simp only [afterTasks, List.foldl_cons, List.foldl_nil, Edit.after, Edit.outcome, carryOut,
      onPlan, onDrawn, onRun, Edit.run_within, hrestore]
  rw [hfirst]
  have hpick : (⟨[(.positiveSwap, 1 / 2), (.rotate, 1)]⟩ : MoveTable Rat).pick (3 / 4)
      = .rotate := by
    decide +kernel
  refine ⟨?_, 0, Session.twice, ?_, ?_, by decide, by decide⟩
  · rw [htable]
    exact hpick
  · exact congrArg (fun l : Layout Rat => (l.choosable true)[0]?) hlayout
  · exact congrArg (fun l : Layout Rat => l.blocks[0]?) hlayout

end Annealer

end BlockPlan
