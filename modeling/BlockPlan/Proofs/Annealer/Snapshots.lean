import BlockPlan.Proofs.Annealer.Tasks

/-!
# Going back to what was kept

What is kept of a plan are its sequences, the points and the shape keys of its blocks, and its raw
values. Whatever has happened before, and however many moves are made in between, loading gives all
of this back, with every block in the shape of its key.  Filling dead space stretches blocks beyond
their shapes, which a shape key does not tell; where this has not happened, the plan itself comes
back, and the next run reports the layout that it leaves behind.

* `Plan.GivenBack` — what loading gives back of a plan.
* `load_afterMoves` — loading after a number of moves.
* `Unfilled`, `Unfilled.primed` — annealers without stretched blocks, and what holds of them.
* **`load_keep`** — what was kept of the plan of any annealer is given back.
* `load_stretched` — a stretched block comes back smaller.
-/

namespace BlockPlan

variable {ρ : Type}

/-- The same block at the same point with the same shape key, in the shape of this key. -/
structure Block.GivenBack (b c : Block Rat) : Prop where
  makeup : c.makeup = b.makeup
  shapeKey : c.shapeKey = b.shapeKey
  point : c.x = b.x ∧ c.y = b.y
  showsShape : c.ShowsShape
  same : b.ShowsShape → c = b

/-- The same sequences, the same raw values and norms, and the same blocks in the shapes of their
keys. -/
structure Plan.GivenBack (p q : Plan Rat) : Prop where
  pair : q.layout.pair = p.layout.pair
  tally : q.tally = p.tally
  lastMove : q.lastMove = none
  blocks : List.Forall₂ Block.GivenBack p.layout.blocks q.layout.blocks

namespace Plan

variable {setup : Setup Rat} {known : Layout.Makeups Rat} {p q : Plan Rat}

/-- A keyed plan is given back as it is, with its blocks in shape. -/
lemma Keyed.givenBack (h : p.Keyed known) :
    p.GivenBack { p with layout := p.layout.inShape, lastMove := none } := by
  refine ⟨rfl, rfl, rfl, ?_⟩
  refine List.forall₂_map_right_iff.mpr (List.forall₂_same.mpr fun b hb => ?_)
  exact ⟨b.inShape_makeup, b.inShape_shapeKey, ⟨b.inShape_x, b.inShape_y⟩,
    Block.inShape_showsShape (h.layout.lists b hb), fun hb => hb.inShape⟩

/-- Whether it succeeds or fails, a move keeps a plan keyed and does not change its norms. -/
lemma perturb_keyed_norm [DrawSource ρ Rat] [LawfulDraws ρ Rat] (hsetup : setup.Fair)
    (norm : PerTerm Rat) :
    Edit.Leads (fun t : Drawn (Plan Rat) ρ => t.state.Keyed known ∧ t.state.tally.norm = norm)
      (perturb setup false) (fun _ t => t.state.Keyed known ∧ t.state.tally.norm = norm)
      (fun t => t.state.Keyed known ∧ t.state.tally.norm = norm) := by
  rintro ⟨p, r⟩ ⟨h, hnorm⟩
  by_cases hstuck : p.Stuck setup r
  · obtain ⟨r', hrun⟩ := run_perturb_stuck h.norms false hstuck
    rw [hrun]
    exact ⟨h, hnorm⟩
  · obtain ⟨q, r', hrun, hq, hsame⟩ := run_perturb_keyed hsetup h false hstuck
    rw [hrun]
    exact ⟨hq, hsame.trans hnorm⟩

/-! ## Aligning -/

/-- A sound layout stays sound when hard blocks are moved. -/
lemma layout_sound_of_moved {l l' : Layout Rat} (h : l.Sound known) (hpair : l'.pair = l.pair)
    (hblocks : List.Forall₂ Block.MovedFrom l.blocks l'.blocks) : l'.Sound known := by
  refine (layout_keyed_of_moved h.keyed hpair hblocks).sound fun c hc => ?_
  obtain ⟨i, hi, rfl⟩ := List.mem_iff_getElem.mp hc
  have hb := h.showsShape _ (List.getElem_mem (hblocks.length_eq ▸ hi : i < l.blocks.length))
  rcases hblocks.get (hblocks.length_eq ▸ hi) hi with hsame | ⟨-, x, y, hmoved⟩
  · rw [List.get_eq_getElem, List.get_eq_getElem] at hsame
    rwa [hsame]
  · rw [List.get_eq_getElem, List.get_eq_getElem] at hmoved
    rw [hmoved]
    exact Block.showsShape_place.mpr hb

lemma align_sound (hsetup : setup.Fair) (h? v? : Option Rat) :
    Edit.Leads (Sound known) (align setup h? v?) (fun _ => Sound known) (fun _ => False) := by
  refine align_leads hsetup h? v? fun p q hp hpair hmoved htally hlast => ?_
  refine ⟨layout_sound_of_moved hp.layout hpair hmoved, ?_, by simp [hlast]⟩
  rw [htally]
  exact hp.norms

/-- Aligning measures the layout that it leaves. -/
lemma align_poised (hsetup : setup.Fair) (h? v? : Option Rat) :
    Edit.Leads (Poised (fun _ => True) setup known) (align setup h? v?)
      (fun _ => Poised (fun _ => True) setup known) (fun _ => False) := by
  refine align_leads hsetup h? v? fun p q hp hpair hmoved htally hlast => ?_
  have hnorms : q.tally.PositiveNorms := by
    rw [htally]
    exact hp.gauged.sound.norms
  have hsound : q.Sound known :=
    ⟨layout_sound_of_moved hp.gauged.sound.layout hpair hmoved, hnorms, by simp [hlast]⟩
  refine Gauged.poised ⟨hsound, trivial, fun t _ => ?_⟩ hlast
  rw [htally]
  simp only [Tally.measured, PerTerm.get_ofFn, Bool.true_or, if_true]

end Plan

namespace Annealer

section Loading

variable [DrawSource ρ Rat] [LawfulDraws ρ Rat] [Transcendental Rat] {setup : Setup Rat}
  {known : Layout.Makeups Rat}

/-! ## Loading after a number of moves -/

/-- A keyed plan that was kept is given back after any number of moves, whether these succeed or
fail. -/
theorem load_afterMoves (hsetup : setup.Fair) {a : Annealer Rat ρ} (ha : a.plan.Keyed known)
    (moves : Nat) :
    ∃ b : Annealer Rat ρ, (onPlan (Plan.load a.plan.keep)).run
        (a.afterTasks setup (.replicate moves .perturb)) = .ok () b ∧
      b.plan = { a.plan with layout := a.plan.layout.inShape, lastMove := none } ∧
      b.temperature = a.temperature := by
  let I : Plan Rat → Prop := fun p => p.Keyed known ∧ p.tally.norm = a.plan.tally.norm
  let T : Option Rat → Prop := fun t => t = a.temperature
  have hmoves : I (a.afterTasks setup (.replicate moves .perturb)).plan ∧
      T (a.afterTasks setup (.replicate moves .perturb)).temperature := by
    refine afterTasks_keeps (I := fun b => I b.plan ∧ T b.temperature) (fun t ht => ?_)
      ⟨⟨ha, rfl⟩, rfl⟩
    rw [List.eq_of_mem_replicate ht]
    exact onDrawn_leads T (Plan.perturb_keyed_norm hsetup _)
  have hload : Edit.Leads I (Plan.load a.plan.keep)
      (fun _ p => p = { a.plan with layout := a.plan.layout.inShape, lastMove := none })
      (fun _ => False) := by
    refine Edit.Leads.of_ok fun p hp =>
      ⟨(), _, Plan.run_load_keyed hp.1.layout.makeups ha.layout, ?_⟩
    have htally : (⟨a.plan.tally.raw, p.tally.norm⟩ : Tally Rat) = a.plan.tally := by rw [hp.2]
    exact congrArg (fun t => (⟨a.plan.layout.inShape, t, none⟩ : Plan Rat)) htally
  obtain ⟨_, b, hrun, hb⟩ := (onPlan_total T hload).ok hmoves
  exact ⟨b, hrun, hb⟩

/-! ## Annealers without stretched blocks -/

/-- Annealers that tasks make of a first one, in which no block is stretched: none is so at first,
or all of them have been placed anew by calibrating or running, and nothing has been filled since
then.  A calibration that fails leaves off in the middle, and does not count. -/
inductive Unfilled (setup : Setup Rat) (first : Annealer Rat ρ) : Annealer Rat ρ → Prop
  | made : (∀ b ∈ first.plan.layout.blocks, b.ShowsShape) → Unfilled setup first first
  | found {tasks : List Task} {task : Task} {b : Annealer Rat ρ} : task = .calibrate ∨ task = .run →
      (carryOut setup task).run (first.afterTasks setup tasks) = .ok () b → Unfilled setup first b
  | step {a : Annealer Rat ρ} (task : Task) :
    task ≠ .calibrate → task ≠ .fill → Unfilled setup first a →
      Unfilled setup first ((carryOut setup task).after a)

omit [LawfulDraws ρ Rat] in
/-- Tasks lead to each of them. -/
lemma Unfilled.exists_tasks {first a : Annealer Rat ρ} (h : Unfilled setup first a) :
    ∃ tasks, a = first.afterTasks setup tasks := by
  induction h with
  | made _ => exact ⟨[], rfl⟩
  | @found tasks task b _ hrun =>
      refine ⟨tasks ++ [task], ?_⟩
      rw [afterTasks_concat, Edit.after, Edit.outcome, hrun]
  | @step a task _ _ _ ih =>
      obtain ⟨tasks, rfl⟩ := ih
      exact ⟨tasks ++ [task], (afterTasks_concat setup tasks task first).symm⟩

omit [DrawSource ρ Rat] [LawfulDraws ρ Rat] [Transcendental Rat] in
/-- An edit that keeps plans sound, and poised, and does not change the temperature, keeps an
annealer primed. -/
lemma primed_leads {β : Type} {L : Layout Rat → Prop} {edit : Edit Rat (Annealer Rat ρ) β}
    (hsound : ∀ T : Option Rat → Prop, Edit.Leads
      (fun a => a.plan.Sound known ∧ T a.temperature) edit
      (fun _ a => a.plan.Sound known ∧ T a.temperature)
      (fun a => a.plan.Sound known ∧ T a.temperature))
    (hpoised : ∀ T : Option Rat → Prop, Edit.Leads
      (fun a => a.plan.Poised L setup known ∧ T a.temperature) edit
      (fun _ a => a.plan.Poised L setup known ∧ T a.temperature)
      (fun a => a.plan.Poised L setup known ∧ T a.temperature)) :
    Edit.Leads (Primed L setup known) edit (fun _ => Primed L setup known)
      (Primed L setup known) := by
  intro a ha
  have hfirst := hsound (fun t => t = a.temperature) a ⟨ha.sound, rfl⟩
  by_cases hknown : a.temperature.isSome
  · have hsecond := hpoised (fun t => t = a.temperature) a ⟨ha.poised hknown, rfl⟩
    cases hrun : edit.run a with
    | ok _ b =>
        rw [hrun] at hsecond
        exact ⟨hsecond.1.gauged.sound, fun _ => hsecond.1⟩
    | error _ b =>
        rw [hrun] at hsecond
        exact ⟨hsecond.1.gauged.sound, fun _ => hsecond.1⟩
  · -- an annealer without a temperature is primed if its plan is sound
    have hprimed : ∀ b : Annealer Rat ρ, b.plan.Sound known ∧ b.temperature = a.temperature →
        b.Primed L setup known := by
      rintro b ⟨hsound, htemperature⟩
      refine ⟨hsound, ?_⟩
      intro hsome
      rw [htemperature] at hsome
      exact absurd hsome hknown
    cases hrun : edit.run a with
    | ok _ b =>
        rw [hrun] at hfirst
        exact hprimed b hfirst
    | error _ b =>
        rw [hrun] at hfirst
        exact hprimed b hfirst

section Unfilled

variable (hsetup : setup.Fair) (hschedule : setup.schedule.Sensible)
  (hsize : known.length = setup.design.blocks.length)

include hsetup hschedule hsize

/-- Every task but calibrating and filling keeps an annealer primed. -/
lemma carryOut_primed {task : Task} (hcalibrate : task ≠ .calibrate) (hfill : task ≠ .fill) :
    Edit.Leads (Primed (fun _ => True) setup known : Annealer Rat ρ → Prop) (carryOut setup task)
      (fun _ => Primed (fun _ => True) setup known) (Primed (fun _ => True) setup known) := by
  have hkind : Plan.MovesKeep (fun _ => True) setup known := fun _ _ _ _ _ => trivial
  cases task with
  | calibrate => exact absurd rfl hcalibrate
  | perturb =>
      have hsound := Plan.perturb_sound hsetup false
        fun (p : Plan Rat) (_ : ρ) (_ : p.Sound known) _ => trivial
      exact primed_leads
        (fun T => onDrawn_leads (E := Plan.Sound known) T
          (hsound.mono (fun _ h => h) (fun _ _ h => h) fun _ h => h.1))
        (fun T => onDrawn_leads T (Plan.perturb_poised hsetup hkind false))
  | restore =>
      exact primed_leads (fun T => onPlan_total T Plan.restore_leads)
        (fun T => onPlan_total T Plan.restore_poised)
  | run =>
      refine Edit.Leads.bind (Q := fun _ => Primed (fun _ => True) setup known) (fun a ha => ?_)
        fun _ => Edit.Leads.pure fun _ h => h
      exact (anneal_primed hsetup hschedule hkind (B := True) (fun _ _ _ _ => trivial)
        (fun _ _ => trivial) hsize (fun _ _ _ => trivial) ha).mono (fun _ h => h)
        (fun _ b h => ⟨h.2.1.gauged.sound, fun _ => h.2.1⟩) (fun _ h => h.1) a rfl
  | fill => exact absurd rfl hfill
  | align h? v? =>
      exact primed_leads (fun T => onPlan_total T (Plan.align_sound hsetup h? v?))
        (fun T => onPlan_total T (Plan.align_poised hsetup h? v?))

end Unfilled

omit [DrawSource ρ Rat] [LawfulDraws ρ Rat] [Transcendental Rat] in
lemma primed_of_clean {a : Annealer Rat ρ} (h : a.plan.Clean setup known) :
    a.Primed (fun _ => True) setup known := by
  refine ⟨h.sound, ?_⟩
  intro _
  exact Plan.Gauged.poised ⟨h.sound, trivial, fun t _ => h.measured t⟩ h.lastMove

section OfDesign

variable {d : Design Rat} {settings : Settings Rat} {plan : Plan Rat}
  (hmade : Setup.ofDesign d settings = .ok (setup, plan))
  (hblocks : ∀ b ∈ d.blocks, b.Lists b.shapeKey)

include hmade hblocks

/-- **An annealer without stretched blocks is primed.** -/
theorem Unfilled.primed {draws : ρ} {a : Annealer Rat ρ}
    (h : Unfilled setup (Annealer.start plan draws) a) :
    a.Primed (fun _ => True) setup (d.blocks.map Block.makeup) := by
  have hsetup := Setup.ofDesign_fair hmade
  have hsize := Setup.ofDesign_size hmade
  induction h with
  | made hshows =>
      have hkeyed := Setup.ofDesign_keyed hmade hblocks
      have hsound : plan.Sound (d.blocks.map Block.makeup) :=
        ⟨hkeyed.layout.sound hshows, hkeyed.norms, fun m hm => (hkeyed.lastMove m hm).changes⟩
      exact ⟨hsound, fun h => absurd h (by simp [Annealer.start])⟩
  | @found tasks task b htask hrun =>
      have hleads := carryOut_clean (ρ := ρ) hsetup hsize htask _
        (afterTasks_keyed hmade hblocks draws tasks)
      rw [hrun] at hleads
      exact primed_of_clean hleads
  | step task hcalibrate hfill _ ih =>
      exact (carryOut_primed hsetup (Setup.ofDesign_sensible hmade) hsize hcalibrate hfill).after ih

/-! ## What is given back -/

/-- **What was kept of the plan of any annealer is given back after any number of moves:** the
sequences, the points and the shape keys of the blocks, the raw values and the norms.  The blocks
come back in the shapes of their keys.  If none was stretched, the plan itself comes back, and a run
from there, as one from the annealer whose plan was kept, reports the layout that it leaves behind.
-/
theorem load_keep (draws : ρ) (tasks : List Task) (moves : Nat) {a c : Annealer Rat ρ}
    (ha : a = (start plan draws).afterTasks setup tasks)
    (hc : c = a.afterTasks setup (.replicate moves .perturb)) :
    ∃ b : Annealer Rat ρ, (onPlan (Plan.load a.plan.keep)).run c = .ok () b ∧
      a.plan.GivenBack b.plan ∧
      (Unfilled setup (start plan draws) a → b.plan = { a.plan with lastMove := none } ∧
        ∀ s ∈ [a, b], ∀ o e, (anneal setup).run s = .ok o e →
          ∃ s', Begins setup s s' ∧ Reported setup s' e o) := by
  have hsetup := Setup.ofDesign_fair hmade
  have hkeyed := afterTasks_keyed hmade hblocks draws tasks
  rw [← ha] at hkeyed
  obtain ⟨b, hrun, hb, htemperature⟩ := load_afterMoves hsetup hkeyed moves
  rw [← hc] at hrun
  have hgiven := hkeyed.givenBack
  rw [← hb] at hgiven
  refine ⟨b, hrun, hgiven, ?_⟩
  intro hunfilled
  have hprimed := hunfilled.primed hmade hblocks
  have hsame : b.plan = { a.plan with lastMove := none } := by
    rw [hb, hprimed.sound.layout.inShape]
  have hback : b.Primed (fun _ => True) setup (d.blocks.map Block.makeup) := by
    constructor
    · rw [hsame]
      exact ⟨hprimed.sound.layout, hprimed.sound.norms, by simp⟩
    · intro hsome
      rw [htemperature] at hsome
      rw [hsame]
      exact (hprimed.poised hsome).gauged.forgotten.poised rfl
  have hreports : ∀ s : Annealer Rat ρ, s.Primed (fun _ => True) setup (d.blocks.map Block.makeup) →
      ∀ o e, (anneal setup).run s = .ok o e → ∃ s', Begins setup s s' ∧ Reported setup s' e o := by
    intro s hs o e hanneal
    have hleads := anneal_primed hsetup (Setup.ofDesign_sensible hmade) (fun _ _ _ _ _ => trivial)
      (B := True) (fun _ _ _ _ => trivial) (fun _ _ => trivial) (Setup.ofDesign_size hmade)
      (fun _ _ _ => trivial) hs s rfl
    rw [hanneal] at hleads
    exact hleads.1
  refine ⟨hsame, ?_⟩
  intro s hs
  rcases List.mem_pair.mp hs with rfl | rfl
  · exact hreports _ hprimed
  · exact hreports _ hback

end OfDesign

end Loading

/-! ## A block that is stretched -/

lemma crowded_showsShape : ∀ b ∈ Plan.crowded.blocks, b.ShowsShape :=
  fun b hb => (Plan.crowded_wellFormed b hb).showsShape

/-- What is kept after filling is given back in shape, what is kept after two moves as it is. -/
theorem load_keep_crowded :
    ∃ setup plan, Setup.ofDesign Plan.crowded {} = .ok (setup, plan) ∧
      let _ := Transcendental.tangent
      ∃ first : Annealer Rat Stream, first = start plan (Stream.steady (1 / 2) (by norm_num) 0) ∧
        (∃ a b, a = first.afterTasks setup [.fill] ∧ (onPlan (Plan.load a.plan.keep)).run
          (a.afterTasks setup (.replicate 3 .perturb)) = .ok () b ∧ a.plan.GivenBack b.plan) ∧
        ∃ a b, a = first.afterTasks setup [.perturb, .perturb] ∧
        (onPlan (Plan.load a.plan.keep)).run
          (a.afterTasks setup (.replicate 3 .perturb)) = .ok () b ∧
          b.plan = { a.plan with lastMove := none } := by
  obtain ⟨setup, plan, hmade, hlayout, -⟩ := Plan.crowded_made
  refine ⟨setup, plan, hmade, ?_⟩
  let _ := Transcendental.tangent
  let first : Annealer Rat Stream := start plan (Stream.steady (1 / 2) (by norm_num) 0)
  have hblocks : ∀ b ∈ Plan.crowded.blocks, b.Lists b.shapeKey := fun b hb =>
    (crowded_showsShape b hb).lists
  obtain ⟨b, hrun, hback, -⟩ :=
    load_keep hmade hblocks (Stream.steady (1 / 2) (by norm_num) 0) [.fill] 3
    (a := first.afterTasks setup [.fill]) rfl rfl
  obtain ⟨b', hrun', -, hsame⟩ := load_keep hmade hblocks (Stream.steady (1 / 2) (by norm_num) 0)
    [.perturb, .perturb] 3 (a := first.afterTasks setup [.perturb, .perturb]) rfl rfl
  have hunfilled : Unfilled setup first (first.afterTasks setup [.perturb, .perturb]) :=
    .step .perturb (by simp) (by simp) (.step .perturb (by simp) (by simp)
      (.made (hlayout ▸ crowded_showsShape)))
  exact ⟨first, rfl, ⟨_, b, rfl, hrun, hback⟩, _, b', rfl, hrun', (hsame hunfilled).1⟩

/-- **A block that filling has stretched comes back as narrow as its shape is.** -/
theorem load_stretched :
    ∃ setup plan, Setup.ofDesign Plan.crowded {} = .ok (setup, plan) ∧
      let _ := Transcendental.tangent
      ∃ a : Annealer Rat Stream,
        a = (start plan (Stream.steady (1 / 2) (by norm_num) 0)).afterTasks setup [.fill] ∧
        ∀ moves, ∃ b, (onPlan (Plan.load a.plan.keep)).run
            (a.afterTasks setup (.replicate moves .perturb)) = .ok () b ∧
          a.plan.layout.blocks.map (·.width) = [4, 4] ∧
          b.plan.layout.blocks.map (·.width) = [2, 4] := by
  obtain ⟨setup, plan, hmade, hlayout, hwidth, hheight, hblockages⟩ := Plan.crowded_made
  refine ⟨setup, plan, hmade, ?_⟩
  let _ := Transcendental.tangent
  let first : Annealer Rat Stream := start plan (Stream.steady (1 / 2) (by norm_num) 0)
  let a : Annealer Rat Stream := first.afterTasks setup [.fill]
  have hkeyed : a.plan.Keyed (Plan.crowded.blocks.map Block.makeup) :=
    afterTasks_keyed hmade (fun b hb => (crowded_showsShape b hb).lists) _ [.fill]
  have hfilled : a.plan.layout.blocks = [⟨"s", .soft [(2, 2)] 0, 0, 0, 4, 2, false⟩,
      ⟨"h", .hard 4 2 [.r0] .r0, 3, 1, 4, 2, false⟩] := by
    have hfill := Plan.run_fill (Setup.ofDesign_fair hmade) first.run.current.state
    simp only [a, afterTasks, List.foldl_cons, List.foldl_nil, Edit.after, Edit.outcome, carryOut,
      onPlan, onDrawn, onRun, Edit.run_within, hfill, Annealer.plan]
    rw [show first.run.current.state.layout.blocks = Plan.crowded.blocks from hlayout]
    exact Plan.fillDeadSpace_crowded hwidth hheight hblockages
  refine ⟨a, rfl, ?_⟩
  intro moves
  obtain ⟨b, hrun, hb, -⟩ := load_afterMoves (Setup.ofDesign_fair hmade) hkeyed moves
  have hshaped : b.plan.layout.blocks = a.plan.layout.blocks.map Block.inShape :=
    congrArg (fun p : Plan Rat => p.layout.blocks) hb
  refine ⟨b, hrun, ?_, ?_⟩
  · rw [hfilled]
    rfl
  · rw [hshaped, hfilled]
    rfl

end Annealer

end BlockPlan
