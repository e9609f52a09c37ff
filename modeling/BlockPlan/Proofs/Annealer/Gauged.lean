import BlockPlan.Proofs.Annealer.Perturb
import BlockPlan.Proofs.Search.Course

/-!
# Gauged plans

A sound plan is *gauged* when the raw value of every term with a weight is the one of its layout, so
that its cost is the cost of its layout.  A gauged plan from which the last move can be taken back
to a gauged plan is *poised*: this is what moving, restoring and loading keep, and hence a whole
search.

All of this may be asked of the layouts of a kind that moves lead to, such as the packed ones.

* `Gauged.cost_eq` — the cost of a gauged plan is the cost that measuring all terms would give.
* **`keeps_poised`** — the operations of a plan keep it poised.
* **`space_lawfulOn_poised`** — poised plans with the same norms make up a lawful search space.
-/

namespace BlockPlan

variable {ρ : Type}

namespace Plan

variable {L : Layout Rat → Prop} {setup : Setup Rat} {known : Layout.Makeups Rat} {p q : Plan Rat}

/-- A sound plan with a layout of a kind, whose terms with a weight are measured. -/
structure Gauged (L : Layout Rat → Prop) (setup : Setup Rat) (known : Layout.Makeups Rat)
    (p : Plan Rat) : Prop where
  sound : p.Sound known
  kind : L p.layout
  measured : ∀ t, setup.objective.enabled t = true →
    p.tally.raw.get t = setup.objective.value p.layout t

/-- A gauged plan whose last move, if there is one, is taken back to a gauged plan. -/
structure Poised (L : Layout Rat → Prop) (setup : Setup Rat) (known : Layout.Makeups Rat)
    (p : Plan Rat) : Prop where
  gauged : p.Gauged L setup known
  undo : p.lastMove = none ∨ ∃ q : Plan Rat, q.Gauged L setup known ∧ q.lastMove = none ∧
    ∀ raw, restore.run { p with tally := { p.tally with raw := raw } } = .ok () q

/-- What can have been kept of a gauged plan. -/
def KeptGauged (L : Layout Rat → Prop) (setup : Setup Rat) (known : Layout.Makeups Rat)
    (k : Kept Rat) : Prop :=
  ∃ q : Plan Rat, q.Gauged L setup known ∧ k = q.keep

/-- Plans that agree in all that their cost depends on. -/
def Same (p q : Plan Rat) : Prop := p.layout = q.layout ∧ p.tally = q.tally

lemma Gauged.poised (h : p.Gauged L setup known) (hlast : p.lastMove = none) :
    p.Poised L setup known :=
  ⟨h, Or.inl hlast⟩

lemma Gauged.forgotten (h : p.Gauged L setup known) :
    Gauged L setup known { p with lastMove := none } :=
  ⟨⟨h.sound.layout, h.sound.norms, by simp⟩, h.kind, h.measured⟩

/-- Measuring the terms, all of them or those with a weight, gauges a sound plan. -/
lemma Sound.gauged_measured (h : p.Sound known) (hkind : L p.layout) (everything : Bool) :
    Gauged L setup known
      { p with tally := p.tally.measured setup.objective everything p.layout } := by
  refine ⟨⟨h.layout, h.norms, h.lastMove⟩, hkind, fun t ht => ?_⟩
  simp only [Tally.measured, PerTerm.get_ofFn, ht, Bool.or_true, if_true]

/-- **The cost of a gauged plan is the one that measuring all terms would give.** -/
theorem Gauged.cost_eq (hsetup : setup.Fair) (h : p.Gauged L setup known) :
    p.cost setup
      = cost setup { p with tally := p.tally.measured setup.objective true p.layout } := by
  refine Tally.total_congr (positiveNorms_measured h.sound.norms _ _ _) rfl hsetup.weights_nonneg
    fun t ht => ?_
  rw [h.measured t (decide_eq_true ht)]
  simp only [Tally.measured, PerTerm.get_ofFn, Bool.true_or, if_true]

lemma Poised.measured (h : p.Poised L setup known) (everything : Bool) :
    Poised L setup known
      { p with tally := p.tally.measured setup.objective everything p.layout } :=
  ⟨h.gauged.sound.gauged_measured h.gauged.kind everything, h.undo⟩

lemma restore_poised :
    Edit.Leads (Poised L setup known) restore (fun _ => Poised L setup known) (fun _ => False) := by
  refine Edit.Leads.of_ok fun p h => ?_
  rcases h.undo with hlast | ⟨q, hq, hlast, hrun⟩
  · exact ⟨(), p, restore_of_none hlast, h⟩
  · exact ⟨(), q, hrun p.tally.raw, hq.poised hlast⟩

/-- Loading what was kept of a gauged plan leaves it gauged, with no move to take back. -/
lemma load_gauged {k : Kept Rat} (hk : KeptGauged L setup known k) :
    Edit.Leads (Sound known) (load k)
      (fun _ p => p.Gauged L setup known ∧ p.lastMove = none) (fun _ => False) := by
  obtain ⟨q, hq, rfl⟩ := hk
  refine Edit.Leads.of_ok fun p h => ⟨(), _, run_load h.layout hq.sound.layout, ?_⟩
  exact ⟨⟨⟨hq.sound.layout, h.norms, by simp⟩, hq.kind, hq.measured⟩, rfl⟩

lemma load_poised {k : Kept Rat} (hk : KeptGauged L setup known k) :
    Edit.Leads (Poised L setup known) (load k) (fun _ => Poised L setup known) (fun _ => False) :=
  (load_gauged hk).mono (fun _ h => h.gauged.sound) (fun _ _ h => h.1.poised h.2) fun _ h => h

section Search

/-- Moves lead from layouts of a kind to layouts of this kind. -/
def MovesKeep (L : Layout Rat → Prop) (setup : Setup Rat) (known : Layout.Makeups Rat) : Prop :=
  ∀ (everything : Bool) (p q : Plan Rat), Moved setup everything known p q → L p.layout → L q.layout

lemma Moved.poised (hkind : MovesKeep L setup known) {everything : Bool}
    (h : Moved setup everything known p q) (hp : p.Gauged L setup known) :
    q.Poised L setup known := by
  constructor
  · refine ⟨h.sound, hkind everything p q h hp.kind, ?_⟩
    intro t ht
    rw [h.tally]
    simp only [Tally.measured, PerTerm.get_ofFn, ht, Bool.or_true, if_true]
  · exact Or.inr ⟨{ p with lastMove := none }, hp.forgotten, rfl, h.restore⟩

variable [DrawSource ρ Rat] [LawfulDraws ρ Rat]

/-- A move keeps a plan poised, whether it succeeds or fails. -/
lemma perturb_poised (hsetup : setup.Fair) (hkind : MovesKeep L setup known) (everything : Bool) :
    Edit.Leads (fun t : Drawn (Plan Rat) ρ => t.state.Poised L setup known)
      (perturb setup everything)
      (fun _ t => t.state.Poised L setup known) (fun t => t.state.Poised L setup known) := by
  rintro ⟨p, r⟩ h
  by_cases hstuck : p.Stuck setup r
  · obtain ⟨r', hrun⟩ := run_perturb_stuck h.gauged.sound.norms everything hstuck
    rw [hrun]
    exact h
  · obtain ⟨q, r', hrun, hmoved⟩ := run_perturb hsetup h.gauged.sound everything hstuck
    rw [hrun]
    exact hmoved.poised hkind h.gauged

/-- **The operations of a plan keep it poised.** -/
theorem keeps_poised (hsetup : setup.Fair) (hkind : MovesKeep L setup known) :
    (space setup : SearchSpace Rat (Plan Rat) ρ (Kept Rat)).Keeps (Poised L setup known)
      (KeptGauged L setup known) where
  perturb := perturb_poised hsetup hkind false
  restore := restore_poised.of_total
  keep := fun p h => ⟨p, h.gauged, rfl⟩
  load := fun _ hk => (load_poised hk).of_total

/-- **Poised plans with the same norms make up a lawful search space.** -/
theorem space_lawfulOn_poised (hsetup : setup.Fair) (hkind : MovesKeep L setup known)
    (norm : PerTerm Rat) :
    (space setup : SearchSpace Rat (Plan Rat) ρ (Kept Rat)).LawfulOn
      (fun p => p.Poised L setup known ∧ p.tally.norm = norm) Same where
  cost_congr := by
    rintro p q ⟨-, htally⟩
    exact congrArg (fun t : Tally Rat => t.total setup.objective.weights) htally
  restore_perturb := by
    rintro p r t ⟨hp, hnorm⟩ hrun
    have hfree : ¬ p.Stuck setup r := by
      intro hstuck
      obtain ⟨r', hfails⟩ := run_perturb_stuck hp.gauged.sound.norms false hstuck
      rw [space, hfails] at hrun
      cases hrun
    obtain ⟨q, r', hok, hmoved⟩ := run_perturb hsetup hp.gauged.sound false hfree
    rw [space, hok, EStateM.Result.ok.injEq] at hrun
    obtain ⟨-, rfl⟩ := hrun
    have hnormed : q.tally.norm = norm := by
      rw [hmoved.tally]
      exact hnorm
    have hback : ({ p with lastMove := none } : Plan Rat).Poised L setup known :=
      hp.gauged.forgotten.poised rfl
    exact ⟨⟨hmoved.poised hkind hp.gauged, hnormed⟩, { p with lastMove := none },
      hmoved.restore q.tally.raw, ⟨hback, hnorm⟩, rfl, rfl⟩
  load_keep := by
    rintro p q ⟨hp, hnorm⟩ ⟨hq, hnorm'⟩
    have htally : (⟨p.tally.raw, q.tally.norm⟩ : Tally Rat) = p.tally := by
      rw [hnorm', ← hnorm]
    refine ⟨_, run_load hq.gauged.sound.layout hp.gauged.sound.layout, ?_, rfl, htally⟩
    rw [htally]
    exact ⟨hp.gauged.forgotten.poised rfl, hnorm⟩

end Search

end Plan

end BlockPlan
