import BlockPlan.Proofs.Annealer.Settled
import BlockPlan.Proofs.Annealer.Setup
import BlockPlan.Proofs.Cooling.Start

/-!
# Sessions with an annealer

A session is a run of commands on an annealer: calibrating, moving, taking back, keeping, loading
what was kept, and searching.  A command that fails leaves behind what it has changed so far, and
the next one goes on from there.

* `Session`, `Command`, `Session.after` — an annealer beside what was kept of its plan, the
  commands, and what a list of commands makes of a session.
* **`calibrate_opens`** — calibration goes back to the packing that its walk has begun with.
* `calibrate_leads`, `run_calibrate` — calibrating a sound plan keeps it sound, and settles it when
  it succeeds, which it does when no move can be stuck.
* `anneal_sound`, `anneal_steady` — so does a whole run keep a plan sound, or steady.
* **`after_sound`** — the plan of every session stays sound.
* **`after_steady`** — once the plan has been settled by calibration, it stays steady.
-/

namespace BlockPlan

variable {ρ : Type}

namespace Annealer

variable {setup : Setup Rat} {known : Layout.Makeups Rat}

/-! ## Edits of an annealer -/

section Edits

variable {β : Type} {P E : Plan Rat → Prop} {Q : β → Plan Rat → Prop} (T : Option Rat → Prop)

/-- An edit of a run leads an annealer as it leads the run, and leaves the temperature alone. -/
lemma onRun_leads {edit : Edit Rat (Run Rat (Plan Rat) ρ) β}
    (h : Edit.Leads (fun r => P r.current.state) edit (fun v r => Q v r.current.state)
      (fun r => E r.current.state)) :
    Edit.Leads (fun a : Annealer Rat ρ => P a.plan ∧ T a.temperature) (onRun edit)
      (fun v a => Q v a.plan ∧ T a.temperature) (fun a => E a.plan ∧ T a.temperature) := by
  rintro a ⟨ha, ht⟩
  have hrun := h a.run ha
  simp only [onRun, Edit.run_within]
  cases hr : edit.run a.run with
  | ok v r =>
      rw [hr] at hrun
      exact ⟨hrun, ht⟩
  | error e r =>
      rw [hr] at hrun
      exact ⟨hrun, ht⟩

lemma onDrawn_leads {edit : Edit Rat (Drawn (Plan Rat) ρ) β}
    (h : Edit.Leads (fun t => P t.state) edit (fun v t => Q v t.state) (fun t => E t.state)) :
    Edit.Leads (fun a : Annealer Rat ρ => P a.plan ∧ T a.temperature) (onDrawn edit)
      (fun v a => Q v a.plan ∧ T a.temperature) (fun a => E a.plan ∧ T a.temperature) :=
  onRun_leads T (h.within fun _ _ => rfl)

lemma onPlan_leads {edit : Edit Rat (Plan Rat) β} (h : Edit.Leads P edit Q E) :
    Edit.Leads (fun a : Annealer Rat ρ => P a.plan ∧ T a.temperature) (onPlan edit)
      (fun v a => Q v a.plan ∧ T a.temperature) (fun a => E a.plan ∧ T a.temperature) :=
  onDrawn_leads T h.onState

/-- An edit of the plan that does not fail does not fail on an annealer. -/
lemma onPlan_total {edit : Edit Rat (Plan Rat) β} (h : Edit.Leads P edit Q fun _ => False)
    {E : Annealer Rat ρ → Prop} :
    Edit.Leads (fun a : Annealer Rat ρ => P a.plan ∧ T a.temperature) (onPlan edit)
      (fun v a => Q v a.plan ∧ T a.temperature) E :=
  (onPlan_leads T h).mono (fun _ h => h) (fun _ _ h => h) fun _ h => h.1.elim

lemma note_leads (e : Event Rat) {E : Annealer Rat ρ → Prop} :
    Edit.Leads (fun a : Annealer Rat ρ => P a.plan ∧ T a.temperature) (onRun (Annealing.note e))
      (fun _ a => P a.plan ∧ T a.temperature) E :=
  fun _ ha => ha

end Edits

/-! ## Calibrating -/

section Install

variable {I : Layout Rat → Prop} (hI : Layout.Closed known I)

include hI

/-- Installing sequences keeps what changes of the pair keep; it fails only if they are not
accepted. -/
lemma setSequences_leads (positive negative : List Int) :
    Edit.Leads I (Layout.setSequences positive negative)
      (fun _ => I) (fun l => I l ∧
        ∀ q, (SequencePair.ofPermutations known.length positive negative
          : Except (Fault Rat) SequencePair) ≠ .ok q) := by
  intro l h
  rw [← (hI.keyed l h).size]
  cases hp : (SequencePair.ofPermutations l.size positive negative
      : Except (Fault Rat) SequencePair) with
  | ok q =>
      have hrun := (Layout.run_setSequences_ok_iff (l := l)).mpr
        ⟨hp, (rfl : ({ l with pair := q } : Layout Rat).blocks = l.blocks)⟩
      rw [hrun]
      exact hI.setPair l q h (SequencePair.coherent_of_ofPermutations hp)
  | error e =>
      simp only [Layout.setSequences, Layout.editPair, EStateM.run_bind, EStateM.run_get, hp,
        Edit.run_ofExcept_error]
      exact ⟨h, by simp⟩

/-- The initial sequences of a setup are accepted, and so are shelves. -/
lemma installInitial_leads (hsetup : setup.Fair)
    (hsize : known.length = setup.design.blocks.length) :
    Edit.Leads I (installInitial setup) (fun _ => I) (fun _ => False) := by
  rw [installInitial]
  split
  · rename_i positive negative hinitial
    refine (setSequences_leads hI positive negative).mono (fun _ h => h) (fun _ _ h => h)
      fun l h => ?_
    obtain ⟨q, hq⟩ := hsetup.initial _ hinitial
    exact h.2 q (hsize ▸ hq)
  · refine Edit.Leads.bind Edit.Leads.get fun l => Edit.Leads.fact fun hl => ?_
    refine (setSequences_leads hI _ _).mono (fun _ h => h) (fun _ _ h => h) fun _ h => ?_
    obtain ⟨hpositive, hnegative⟩ := Shelf.sequences_perm setup.design.outlineWidth l.blocks
    rw [← Layout.size, (hI.keyed l hl).size] at hpositive hnegative
    exact h.2 _ (SequencePair.ofPermutations_natCast hpositive hnegative)

end Install

/-- An edit of the layout that keeps it sound keeps the plan sound. -/
lemma onLayout_leads {β : Type} {edit : Edit Rat (Layout Rat) β} {Q : β → Layout Rat → Prop}
    (h : Edit.Leads (Layout.Sound known) edit Q fun _ => False)
    (hsound : ∀ v l, Q v l → l.Sound known) :
    Edit.Leads (Plan.Sound known) (Plan.onLayout edit) (fun v p => p.Sound known ∧ Q v p.layout)
      (fun _ => False) := by
  refine Edit.Leads.of_ok fun p hp => ?_
  obtain ⟨v, l, hrun, hl⟩ := h.ok hp.layout
  refine ⟨v, { p with layout := l }, ?_, ⟨hsound v l hl, hp.norms, hp.lastMove⟩, hl⟩
  simp only [Plan.onLayout, Edit.run_within, hrun]

lemma evaluate_sound (hsetup : setup.Fair) (everything : Bool) :
    Edit.Leads (Plan.Sound known) (Plan.evaluate setup everything) (fun _ => Plan.Sound known)
      (fun _ => False) :=
  Edit.Leads.of_ok fun p h => ⟨(), _, Plan.run_evaluate hsetup everything p,
    ⟨h.layout, h.norms, h.lastMove⟩⟩

/-- What calibration leads to when it began with a layout: this layout in shape, measured, with no
move to take back. -/
structure Opened (setup : Setup Rat) (l : Layout Rat) (p : Plan Rat) : Prop where
  layout : p.layout = l.inShape
  norms : p.tally.PositiveNorms
  measured : ∀ t, p.tally.raw.get t = setup.objective.value p.layout t
  lastMove : p.lastMove = none

/-- A keyed layout is loaded into every plan of blocks of the same makeups. -/
lemma loadLayout_leads {l : Layout Rat} (h : l.Keyed known) :
    Edit.Leads (fun p => p.layout.Keyed known ∧ p.tally.PositiveNorms)
      (Plan.onLayout (Layout.load true l.snapshot))
      (fun _ p => p.layout = l.inShape ∧ p.tally.PositiveNorms) (fun _ => False) := by
  refine Edit.Leads.of_ok fun p hp => ⟨(), { p with layout := l.inShape }, ?_, rfl, hp.2⟩
  simp only [Plan.onLayout, Edit.run_within, Layout.run_load_keyed h hp.1.makeups]

lemma evaluate_opened (hsetup : setup.Fair) {l : Layout Rat} :
    Edit.Leads (fun p => p.layout = l.inShape ∧ p.tally.PositiveNorms) (Plan.evaluate setup true)
      (fun _ p => Opened setup l { p with lastMove := none }) (fun _ => False) := by
  refine Edit.Leads.of_ok fun p hp => ⟨(), _, Plan.run_evaluate hsetup true p, hp.1, hp.2, ?_, rfl⟩
  intro t
  simp only [Tally.measured, PerTerm.get_ofFn, Bool.true_or, if_true]

lemma forget_opened {l : Layout Rat} :
    Edit.Leads (fun p => Opened setup l { p with lastMove := none }) Plan.forget
      (fun _ => Opened setup l) (fun _ => False) :=
  Edit.Leads.modify fun _ hp => hp

variable [DrawSource ρ Rat]

/-- What calibration asks of a kind of plans: to be kept by all that calibration does to a plan
before it goes back to where the walk began.  Only a move may fail, if `B`. -/
structure Calibrates (ρ : Type) [DrawSource ρ Rat] (setup : Setup Rat) (known : Layout.Makeups Rat)
    (P : Plan Rat → Prop) (B : Prop) : Prop where
  keyed : ∀ p, P p → p.layout.Keyed known ∧ p.tally.PositiveNorms
  install : Edit.Leads P (Plan.onLayout (installInitial setup)) (fun _ => P) (fun _ => False)
  pack : ∀ p, P p → P { p with layout := p.layout.pack }
  evaluate : Edit.Leads P (Plan.evaluate setup true) (fun _ => P) (fun _ => False)
  perturb : Edit.Leads (fun t : Drawn (Plan Rat) ρ => P t.state) (Plan.perturb setup true)
    (fun _ t => P t.state) (fun t => P t.state ∧ B)
  setNorms : ∀ p samples, P p → P { p with tally := p.tally.setNorms samples }

variable {P : Plan Rat → Prop} {B : Prop}

/-- Calibration keeps sound plans sound. -/
lemma calibrates_sound [LawfulDraws ρ Rat] (hsetup : setup.Fair)
    (hsize : known.length = setup.design.blocks.length)
    (hB : ∀ (p : Plan Rat) (r : ρ), p.Sound known → p.Stuck setup r → B) :
    Calibrates ρ setup known (Plan.Sound known) B where
  keyed := fun _ h => ⟨h.layout.keyed, h.norms⟩
  install := (onLayout_leads (installInitial_leads Layout.closed_sound hsetup hsize)
    fun _ _ h => h).mono
    (fun _ h => h) (fun _ _ h => h.1) fun _ h => h
  pack := fun _ h => ⟨h.layout.pack, h.norms, h.lastMove⟩
  evaluate := evaluate_sound hsetup true
  perturb := Plan.perturb_sound hsetup true hB
  setNorms := fun _ samples h => ⟨h.layout, h.norms.setNorms samples, h.lastMove⟩

/-- A walk keeps what its moves keep, and leads where they fail. -/
lemma walk_leads {P E : Plan Rat → Prop}
    (hperturb : Edit.Leads (fun t : Drawn (Plan Rat) ρ => P t.state) (Plan.perturb setup true)
      (fun _ t => P t.state) (fun t => E t.state)) (count : Nat) :
    Edit.Leads (fun t : Drawn (Plan Rat) ρ => P t.state) (walk setup count)
      (fun _ t => P t.state) (fun t => E t.state) := by
  induction count with
  | zero => exact Edit.Leads.pure fun _ h => h
  | succ count ih =>
      refine Edit.Leads.bind hperturb fun _ => ?_
      refine Edit.Leads.bind Edit.Leads.get fun _ => Edit.Leads.fact fun _ => ?_
      exact Edit.Leads.bind ih fun _ => Edit.Leads.pure fun _ h => h

variable [Transcendental Rat]

/-- **Calibration goes back to the packing that its walk has begun with**, whatever is known of it,
and leaves a plan of the kind, with the temperature that was known before, when it fails. -/
theorem calibrate_opens (hsetup : setup.Fair) (h : Calibrates ρ setup known P B)
    (hstart : ∀ costs e, startTemperature costs setup.schedule.initialAcceptance
      setup.schedule.floor = .error e → B) (T : Option Rat → Prop) {S : Plan Rat → Prop}
    {O : Layout Rat → Prop}
    (hopens : Edit.Leads (fun p => P p ∧ S p) (Plan.onLayout (installInitial setup))
      (fun _ p => P p ∧ O p.layout.pack) (fun _ => False)) :
    Edit.Leads (fun a : Annealer Rat ρ => (P a.plan ∧ S a.plan) ∧ T a.temperature) (calibrate setup)
      (fun _ a => (∃ o : Plan Rat, P o ∧ o.layout.pack = o.layout ∧ O o.layout ∧
        Opened setup o.layout a.plan) ∧ a.temperature.isSome)
      (fun a => (P a.plan ∧ B) ∧ T a.temperature) := by
  let U : Option Rat → Prop := fun t => t.isSome
  refine Edit.Leads.bind (onPlan_total (P := fun p => P p ∧ S p) T hopens) fun _ => ?_
  refine Edit.Leads.bind (onPlan_total T (Edit.Leads.of_ok (P := fun p => P p ∧ O p.layout.pack)
    (Q := fun _ p => P p ∧ p.layout.pack = p.layout ∧ O p.layout) fun p hp =>
      ⟨(), _, rfl, h.pack p hp.1, ?_, hp.2⟩)) fun _ => ?_
  · exact Layout.pack_pack (h.keyed p hp.1).1.coherent
  refine Edit.Leads.bind Edit.Leads.get fun a => Edit.Leads.fact fun hopening => ?_
  -- the walk, from which norms and temperature are found
  refine Edit.Leads.bind ((onPlan_total T h.evaluate).weaken fun a h => ⟨h.1.1, h.2⟩) fun _ => ?_
  refine Edit.Leads.bind
    (onDrawn_leads (E := fun p => P p ∧ B) T (walk_leads (E := fun p => P p ∧ B) h.perturb _))
    fun samples => ?_
  refine Edit.Leads.bind (onPlan_total T (Edit.Leads.modify (Q := fun _ => P)
    fun p hp => h.setNorms p samples hp)) fun _ => ?_
  refine Edit.Leads.bind Edit.Leads.get fun measured => Edit.Leads.fact fun hmeasured => ?_
  refine Edit.Leads.bind (Edit.Leads.ofExcept_ok (mapM_exists_ok fun s _ =>
    Tally.costOf_eq_ok (h.keyed _ hmeasured.1).2 _ s.toList) fun _ _ h => h) fun costs => ?_
  refine Edit.Leads.bind (Edit.Leads.ofExcept (fun _ _ _ h => h)
    fun e he _ h => ⟨⟨h.1, hstart costs e he⟩, h.2⟩) fun t => ?_
  refine Edit.Leads.bind (Edit.Leads.modify
    (Q := fun _ a => (a.plan.layout.Keyed known ∧ a.plan.tally.PositiveNorms) ∧ U a.temperature)
    fun a ha => ⟨h.keyed _ ha.1, rfl⟩) fun _ => ?_
  -- the way back to the packing that the walk began with
  refine Edit.Leads.bind (onPlan_total U (loadLayout_leads (h.keyed _ hopening.1.1).1)) fun _ => ?_
  refine Edit.Leads.bind (onPlan_total U (evaluate_opened hsetup)) fun _ => ?_
  refine Edit.Leads.bind (onPlan_total U forget_opened) fun _ => ?_
  refine Edit.Leads.bind (Edit.Leads.forM fun term _ => note_leads
    (P := Opened setup a.plan.layout) U _) fun _ => ?_
  refine Edit.Leads.bind Edit.Leads.get fun last => Edit.Leads.fact fun hlast => ?_
  refine Edit.Leads.bind (Edit.Leads.ofExcept_ok
    ⟨_, Tally.total_eq_ok hlast.1.norms _⟩ fun _ _ h => h) fun cost => ?_
  exact (note_leads (P := Opened setup a.plan.layout) U _).mono (fun _ h => h)
    (fun _ _ h => ⟨⟨a.plan, hopening.1.1, hopening.1.2.1, hopening.1.2.2, h.1⟩, h.2⟩) fun _ h => h

/-- Calibration goes back to a packing of the kind that it keeps. -/
lemma calibrate_opened (hsetup : setup.Fair) (h : Calibrates ρ setup known P B)
    (hstart : ∀ costs e, startTemperature costs setup.schedule.initialAcceptance
      setup.schedule.floor = .error e → B) (T : Option Rat → Prop) :
    Edit.Leads (fun a : Annealer Rat ρ => P a.plan ∧ T a.temperature) (calibrate setup)
      (fun _ a => (∃ o : Plan Rat, P o ∧ o.layout.pack = o.layout ∧ Opened setup o.layout a.plan) ∧
        a.temperature.isSome)
      (fun a => (P a.plan ∧ B) ∧ T a.temperature) := by
  have hinstall : Edit.Leads (fun p => P p ∧ True) (Plan.onLayout (installInitial setup))
      (fun _ p => P p ∧ True) (fun _ => False) :=
    h.install.mono (fun _ hp => hp.1) (fun _ _ hp => ⟨hp, trivial⟩) fun _ hp => hp
  refine (calibrate_opens hsetup h hstart T (S := fun _ => True) (O := fun _ => True) hinstall).mono
    (fun _ ha => ⟨⟨ha.1, trivial⟩, ha.2⟩) ?_ fun _ ha => ha
  rintro _ a ⟨⟨o, ho, hpacked, -, hopened⟩, hsome⟩
  exact ⟨⟨o, ho, hpacked, hopened⟩, hsome⟩

variable [LawfulDraws ρ Rat]

/-- Calibrating settles a sound plan when it succeeds, and leaves it sound, with the temperature
that was known before, when it fails. -/
lemma calibrate_keeps (hsetup : setup.Fair) (hsize : known.length = setup.design.blocks.length)
    {B : Prop} (hB : ∀ (p : Plan Rat) (r : ρ), p.Sound known → p.Stuck setup r → B)
    (hstart : ∀ costs e, startTemperature costs setup.schedule.initialAcceptance
      setup.schedule.floor = .error e → B) (T : Option Rat → Prop) :
    Edit.Leads (fun a : Annealer Rat ρ => a.plan.Sound known ∧ T a.temperature) (calibrate setup)
      (fun _ a => (a.plan.Settled setup known ∧ a.plan.lastMove = none) ∧ a.temperature.isSome)
      (fun a => (a.plan.Sound known ∧ B) ∧ T a.temperature) := by
  refine (calibrate_opened hsetup (calibrates_sound hsetup hsize hB) hstart T).mono
    (fun _ h => h) ?_ fun _ h => h
  rintro _ a ⟨⟨o, ho, hpacked, hopened⟩, hsome⟩
  -- the blocks of a sound layout are in shape
  have hlayout : a.plan.layout = o.layout := hopened.layout.trans ho.layout.inShape
  have hshapes := ho.layout
  rw [← hlayout] at hshapes hpacked
  have hsound : a.plan.Sound known := ⟨hshapes, hopened.norms, by simp [hopened.lastMove]⟩
  exact ⟨⟨⟨hsound, hpacked, fun t _ => hopened.measured t⟩, hopened.lastMove⟩, hsome⟩

/-- **Calibrating keeps a sound plan sound, and settles it when it succeeds.**  It fails only if a
move of the walk is stuck, or the initial temperature cannot be worked out. -/
theorem calibrate_leads (hsetup : setup.Fair) (hsize : known.length = setup.design.blocks.length)
    {B : Prop} (hB : ∀ (p : Plan Rat) (r : ρ), p.Sound known → p.Stuck setup r → B)
    (hstart : ∀ costs e, startTemperature costs setup.schedule.initialAcceptance
      setup.schedule.floor = .error e → B) :
    Edit.Leads (fun a : Annealer Rat ρ => a.plan.Sound known) (calibrate setup)
      (fun _ a => (a.plan.Settled setup known ∧ a.plan.lastMove = none) ∧ a.temperature.isSome)
      (fun a => a.plan.Sound known ∧ B) :=
  (calibrate_keeps hsetup hsize hB hstart fun _ => True).mono (fun _ h => ⟨h, trivial⟩)
    (fun _ _ h => h) fun _ h => h.1

lemma calibrate_sound (hsetup : setup.Fair) (hsize : known.length = setup.design.blocks.length) :
    Edit.Leads (fun a : Annealer Rat ρ => a.plan.Sound known) (calibrate setup)
      (fun _ a => a.plan.Sound known) (fun a => a.plan.Sound known) :=
  (calibrate_leads (B := True) hsetup hsize (fun _ _ _ _ => trivial) fun _ _ _ => trivial).mono
    (fun _ h => h) (fun _ _ h => h.1.1.sound) fun _ h => h.1

/-- **Calibrating succeeds when no move can be stuck.** -/
theorem run_calibrate (hsetup : setup.Fair) (hsize : known.length = setup.design.blocks.length)
    (hlog : ∀ q : Rat, 0 < q → q < 1 → Transcendental.log q ≠ 0)
    (hfree : ∀ (p : Plan Rat) (r : ρ), p.Sound known → ¬ p.Stuck setup r) {a : Annealer Rat ρ}
    (ha : a.plan.Sound known) :
    ∃ b : Annealer Rat ρ, (calibrate setup).run a = .ok () b ∧
      (b.plan.Settled setup known ∧ b.plan.lastMove = none) ∧ b.temperature.isSome := by
  have hstart : ∀ costs e, startTemperature costs setup.schedule.initialAcceptance
      setup.schedule.floor = .error e → False := by
    intro costs e he
    obtain ⟨t, ht⟩ := startTemperature_eq_ok hlog hsetup.acceptance_pos costs setup.schedule.floor
    rw [ht] at he
    cases he
  obtain ⟨_, b, hrun, hb⟩ := ((calibrate_leads hsetup hsize hfree hstart).mono (fun _ h => h)
    (fun _ _ h => h) fun _ h => h.2).ok ha
  exact ⟨b, hrun, hb⟩

/-! ## Running -/

omit [LawfulDraws ρ Rat] in
/-- A run keeps whatever the operations of a plan and measuring keep, once it holds when the
temperature is known. -/
lemma anneal_leads {I : Plan Rat → Prop} {K : Kept Rat → Prop} {T : Option Rat → Prop}
    {P : Annealer Rat ρ → Prop}
    (h : (Plan.space setup : SearchSpace Rat (Plan Rat) ρ (Kept Rat)).Keeps I K)
    (hmeasure : Edit.Leads I (Plan.evaluate setup true) (fun _ => I) fun _ => False)
    (hcalibrate : Edit.Leads (fun a => P a ∧ a.temperature.isNone = true) (calibrate setup)
      (fun _ a => I a.plan ∧ T a.temperature) (fun a => I a.plan ∧ T a.temperature))
    (hskip : ∀ a, P a → a.temperature.isNone = false → I a.plan ∧ T a.temperature) :
    Edit.Leads P (anneal setup) (fun _ a => I a.plan ∧ T a.temperature)
      (fun a => I a.plan ∧ T a.temperature) := by
  rw [anneal]
  intro a ha
  rw [EStateM.run_bind, EStateM.run_get]
  extract_lets finish search
  have hfinish : ∀ u, Edit.Leads (fun a : Annealer Rat ρ => I a.plan ∧ T a.temperature) (finish u)
      (fun _ a => I a.plan ∧ T a.temperature) (fun a => I a.plan ∧ T a.temperature) := by
    intro u
    refine Edit.Leads.bind (onPlan_total T hmeasure) fun _ =>
      Edit.Leads.bind Edit.Leads.get fun _ => ?_
    exact Edit.Leads.ofExcept (fun _ _ _ h => h.1) fun _ _ _ h => h.1
  have hsearch : ∀ u, Edit.Leads (fun a : Annealer Rat ρ => I a.plan ∧ T a.temperature) (search u)
      (fun _ a => I a.plan ∧ T a.temperature) (fun a => I a.plan ∧ T a.temperature) := by
    intro u
    refine Edit.Leads.bind Edit.Leads.get fun b => Edit.Leads.fact fun _ => ?_
    cases b.temperature with
    | none => exact hfinish ()
    | some t =>
        refine Edit.Leads.bind (onRun_leads T (Annealing.run_leads h setup.schedule t)) fun _ => ?_
        exact Edit.Leads.bind (Edit.Leads.modify fun a ha => ha) hfinish
  cases ht : a.temperature.isNone with
  | true =>
      simp only [ht, if_true]
      exact Edit.Leads.bind hcalibrate hsearch a ⟨ha, ht⟩
  | false =>
      simp only [ht, Bool.false_eq_true, if_false]
      exact hsearch () a (hskip a ha ht)

/-- **A run keeps a plan sound.** -/
theorem anneal_sound (hsetup : setup.Fair) (hsize : known.length = setup.design.blocks.length) :
    Edit.Leads (fun a : Annealer Rat ρ => a.plan.Sound known) (anneal setup)
      (fun _ a => a.plan.Sound known) (fun a => a.plan.Sound known) := by
  have hrun := anneal_leads (T := fun _ => True) (P := fun a : Annealer Rat ρ => a.plan.Sound known)
    (Plan.keeps_sound hsetup known) (evaluate_sound hsetup true)
    ((calibrate_sound hsetup hsize).mono (fun _ h => h.1) (fun _ _ h => ⟨h, trivial⟩)
      fun _ h => ⟨h, trivial⟩) fun a ha _ => ⟨ha, trivial⟩
  exact hrun.mono (fun _ h => h) (fun _ _ h => h.1) fun _ h => h.1

/-- **A run whose temperature is known keeps a plan poised.** -/
theorem anneal_poised {L : Layout Rat → Prop} (hsetup : setup.Fair)
    (hkind : Plan.MovesKeep L setup known) :
    Edit.Leads (fun a : Annealer Rat ρ => a.plan.Poised L setup known ∧ a.temperature.isSome)
      (anneal setup) (fun _ a => a.plan.Poised L setup known ∧ a.temperature.isSome)
      (fun a => a.plan.Poised L setup known ∧ a.temperature.isSome) := by
  refine anneal_leads (T := fun t => t.isSome) (Plan.keeps_poised hsetup hkind)
    (Edit.Leads.of_ok fun p h => ⟨(), _, Plan.run_evaluate hsetup true p, h.measured true⟩)
    (fun a ha => ?_) fun a ha _ => ha
  -- there is nothing to calibrate
  obtain ⟨⟨_, hsome⟩, hnone⟩ := ha
  rw [Option.isNone_iff_eq_none.mp hnone] at hsome
  exact absurd hsome (by simp)

/-- **A run whose temperature is known keeps a plan steady.** -/
theorem anneal_steady (hsetup : setup.Fair) :
    Edit.Leads (fun a : Annealer Rat ρ => a.plan.Steady setup known ∧ a.temperature.isSome)
      (anneal setup) (fun _ a => a.plan.Steady setup known ∧ a.temperature.isSome)
      (fun a => a.plan.Steady setup known ∧ a.temperature.isSome) := by
  simp only [Plan.steady_iff]
  exact anneal_poised hsetup Plan.movesKeep_packed

end Annealer

/-! ## Sessions -/

/-- An annealer, beside what was kept of its plan. -/
structure Session (ρ : Type) where
  annealer : Annealer Rat ρ
  kept : List (Kept Rat)

/-- The commands of a session. -/
inductive Command where
  /-- Calibrate. -/
  | calibrate
  /-- Make a random move. -/
  | perturb
  /-- Take the last move back. -/
  | restore
  /-- Keep what the plan is at the moment. -/
  | keep
  /-- Load what was kept at some time. -/
  | load (time : Nat)
  /-- Run a whole search. -/
  | run
  deriving DecidableEq, Repr

namespace Session

variable [DrawSource ρ Rat] [Transcendental Rat]

/-- Edits the annealer of a session. -/
def onAnnealer {β : Type} (edit : Edit Rat (Annealer Rat ρ) β) : Edit Rat (Session ρ) β :=
  Edit.within Session.annealer (fun a s => { s with annealer := a }) edit

/-- What a command does; nothing if it would load what was never kept. -/
def perform (setup : Setup Rat) : Command → Edit Rat (Session ρ) Unit
  | .calibrate => onAnnealer (Annealer.calibrate setup)
  | .perturb => onAnnealer (Annealer.onDrawn (Plan.perturb setup false))
  | .restore => onAnnealer (Annealer.onPlan Plan.restore)
  | .keep => modify fun s => { s with kept := s.kept ++ [s.annealer.plan.keep] }
  | .load time => do
    match (← get).kept[time]? with
    | some k => onAnnealer (Annealer.onPlan (Plan.load k))
    | none => pure ()
  | .run => onAnnealer do
    let _ ← Annealer.anneal setup

/-- What a list of commands makes of a session.  A command that fails leaves behind what it has
changed so far. -/
def after (setup : Setup Rat) (commands : List Command) (s : Session ρ) : Session ρ :=
  commands.foldl (fun s c => (perform setup c).after s) s

/-- Whatever every single command keeps, a list of them keeps. -/
lemma after_keeps {setup : Setup Rat} {I : Session ρ → Prop} {commands : List Command}
    (h : ∀ c ∈ commands, Edit.Leads I (perform setup c) (fun _ => I) I) {s : Session ρ} (hs : I s) :
    I (s.after setup commands) := by
  induction commands generalizing s with
  | nil => exact hs
  | cons c rest ih =>
      exact ih (fun c hc => h c (by simp [hc])) ((h c (by simp)).after hs)

omit [DrawSource ρ Rat] [Transcendental Rat] in
/-- An edit of the annealer leads a session as it leads the annealer, and what was kept stays. -/
lemma onAnnealer_leads {β : Type} {edit : Edit Rat (Annealer Rat ρ) β} {P E : Annealer Rat ρ → Prop}
    {Q : β → Annealer Rat ρ → Prop} (H : List (Kept Rat) → Prop) (h : Edit.Leads P edit Q E) :
    Edit.Leads (fun s : Session ρ => P s.annealer ∧ H s.kept) (onAnnealer edit)
      (fun v s => Q v s.annealer ∧ H s.kept) (fun s => E s.annealer ∧ H s.kept) := by
  rintro s ⟨hs, hkept⟩
  have hrun := h s.annealer hs
  simp only [onAnnealer, Edit.run_within]
  cases hr : edit.run s.annealer with
  | ok v a =>
      rw [hr] at hrun
      exact ⟨hrun, hkept⟩
  | error e a =>
      rw [hr] at hrun
      exact ⟨hrun, hkept⟩

section Keeps

variable {setup : Setup Rat} {I : Plan Rat → Prop} {K : Kept Rat → Prop} {T : Option Rat → Prop}

/-- A session whose plan and temperature, and what was kept of the plan, have certain properties. -/
def All (I : Plan Rat → Prop) (T : Option Rat → Prop) (K : Kept Rat → Prop) (s : Session ρ) :
    Prop :=
  (I s.annealer.plan ∧ T s.annealer.temperature) ∧ ∀ k ∈ s.kept, K k

/-- What the operations of a plan and the runs of an annealer keep, every command keeps. -/
lemma perform_leads (h : (Plan.space setup : SearchSpace Rat (Plan Rat) ρ (Kept Rat)).Keeps I K)
    (hrun : Edit.Leads (fun a : Annealer Rat ρ => I a.plan ∧ T a.temperature)
      (Annealer.anneal setup)
      (fun _ a => I a.plan ∧ T a.temperature) (fun a => I a.plan ∧ T a.temperature))
    {c : Command}
    (hcalibrate : c = .calibrate →
      Edit.Leads (fun a : Annealer Rat ρ => I a.plan ∧ T a.temperature) (Annealer.calibrate setup)
        (fun _ a => I a.plan ∧ T a.temperature) (fun a => I a.plan ∧ T a.temperature)) :
    Edit.Leads (All I T K) (perform setup c) (fun _ => All I T K)
      (All I T K : Session ρ → Prop) := by
  cases c with
  | calibrate => exact onAnnealer_leads (fun kept => ∀ k ∈ kept, K k) (hcalibrate rfl)
  | perturb =>
      exact onAnnealer_leads (fun kept => ∀ k ∈ kept, K k) (Annealer.onDrawn_leads T h.perturb)
  | restore =>
      exact onAnnealer_leads (fun kept => ∀ k ∈ kept, K k) (Annealer.onPlan_leads T h.restore)
  | keep =>
      refine Edit.Leads.modify fun s hs => ⟨hs.1, fun k hk => ?_⟩
      rcases List.mem_append.mp hk with hk | hk
      · exact hs.2 k hk
      · rw [List.mem_singleton.mp hk]
        exact h.keep _ hs.1.1
  | load time =>
      refine Edit.Leads.bind Edit.Leads.get fun s => Edit.Leads.fact fun hs => ?_
      cases hk : s.kept[time]? with
      | none => exact Edit.Leads.pure fun _ hs => hs
      | some k =>
          exact onAnnealer_leads (fun kept => ∀ k ∈ kept, K k)
            (Annealer.onPlan_leads T (h.load k (hs.2 k (List.mem_of_getElem? hk))))
  | run =>
      exact onAnnealer_leads (Q := fun _ a => I a.plan ∧ T a.temperature)
        (fun kept => ∀ k ∈ kept, K k) (Edit.Leads.bind hrun fun _ => Edit.Leads.pure fun _ ha => ha)

end Keeps

variable [LawfulDraws ρ Rat] {setup : Setup Rat} {known : Layout.Makeups Rat} {s : Session ρ}

/-- **Every session keeps the plan sound.** -/
theorem after_sound (hsetup : setup.Fair) (hsize : known.length = setup.design.blocks.length)
    (commands : List Command) (hs : s.annealer.plan.Sound known)
    (hkept : ∀ k ∈ s.kept, Plan.KeptSound known k) :
    (s.after setup commands).annealer.plan.Sound known := by
  let I : Session ρ → Prop := All (Plan.Sound known) (fun _ => True) (Plan.KeptSound known)
  have hkeeps : ∀ c ∈ commands, Edit.Leads I (perform setup c) (fun _ => I) I := by
    intro c _
    refine perform_leads (Plan.keeps_sound hsetup known) ?_ fun _ => ?_
    · exact (Annealer.anneal_sound hsetup hsize).mono (fun _ h => h.1) (fun _ _ h => ⟨h, trivial⟩)
        fun _ h => ⟨h, trivial⟩
    · exact (Annealer.calibrate_sound hsetup hsize).mono (fun _ h => h.1)
        (fun _ _ h => ⟨h, trivial⟩) fun _ h => ⟨h, trivial⟩
  exact (after_keeps hkeeps ⟨⟨hs, trivial⟩, hkept⟩).1.1

/-- **Once the plan has been settled by calibration, every session keeps it steady.** -/
theorem after_steady (hsetup : setup.Fair) {commands : List Command}
    (hcommands : Command.calibrate ∉ commands)
    (hs : s.annealer.plan.Steady setup known ∧ s.annealer.temperature.isSome)
    (hkept : ∀ k ∈ s.kept, Plan.KeptSettled setup known k) :
    (s.after setup commands).annealer.plan.Steady setup known := by
  let I : Session ρ → Prop :=
    All (Plan.Steady setup known) (fun t => t.isSome) (Plan.KeptSettled setup known)
  have hkeeps : ∀ c ∈ commands, Edit.Leads I (perform setup c) (fun _ => I) I := by
    intro c hc
    refine perform_leads (Plan.keeps_steady hsetup known) (Annealer.anneal_steady hsetup) ?_
    rintro rfl
    exact absurd hc hcommands
  exact (after_keeps hkeeps ⟨hs, hkept⟩).1.1

end Session

end BlockPlan
