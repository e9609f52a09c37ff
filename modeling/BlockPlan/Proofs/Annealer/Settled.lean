import BlockPlan.Proofs.Annealer.Gauged

/-!
# Settled plans

A sound plan is *settled* when it is packed and the raw value of every term with a weight is the one
of its layout.  Settled plans from which the last move can be taken back to a settled plan are
*steady*: this is what moving, restoring and loading keep, and hence a whole search.  In other
words, settled plans are the gauged ones among the packed, and steady plans the poised ones.

* `settled_iff`, `steady_iff` — what settled and steady plans are among the gauged and poised ones.
* `Settled.cost_eq` — the cost of a settled plan is the cost that measuring all terms would give.
* **`keeps_sound`**, **`keeps_steady`** — the operations of a plan keep it sound, and keep it
  steady.
-/

namespace BlockPlan

variable {ρ : Type}

namespace Plan

variable {setup : Setup Rat} {known : Layout.Makeups Rat} {p q : Plan Rat}

/-- A sound plan that is packed and whose terms with a weight are measured. -/
structure Settled (setup : Setup Rat) (known : Layout.Makeups Rat) (p : Plan Rat) : Prop where
  sound : p.Sound known
  packed : p.layout.pack = p.layout
  measured : ∀ t, setup.objective.enabled t = true →
    p.tally.raw.get t = setup.objective.value p.layout t

/-- A settled plan whose last move, if there is one, is taken back to a settled plan. -/
structure Steady (setup : Setup Rat) (known : Layout.Makeups Rat) (p : Plan Rat) : Prop where
  settled : p.Settled setup known
  undo : p.lastMove = none ∨ ∃ q : Plan Rat, q.Settled setup known ∧ q.lastMove = none ∧
    ∀ raw, restore.run { p with tally := { p.tally with raw := raw } } = .ok () q

/-- What can have been kept of a sound plan. -/
def KeptSound (known : Layout.Makeups Rat) (k : Kept Rat) : Prop :=
  ∃ q : Plan Rat, q.layout.Sound known ∧ k = q.keep

/-- What can have been kept of a settled plan. -/
def KeptSettled (setup : Setup Rat) (known : Layout.Makeups Rat) (k : Kept Rat) : Prop :=
  ∃ q : Plan Rat, q.Settled setup known ∧ k = q.keep

/-- A layout that packing would leave as it is. -/
def Packed (l : Layout Rat) : Prop := l.pack = l

lemma settled_iff : p.Settled setup known ↔ p.Gauged Packed setup known := by
  constructor
  · rintro ⟨hsound, hpacked, hmeasured⟩
    exact ⟨hsound, hpacked, hmeasured⟩
  · rintro ⟨hsound, hpacked, hmeasured⟩
    exact ⟨hsound, hpacked, hmeasured⟩

lemma steady_iff : p.Steady setup known ↔ p.Poised Packed setup known := by
  constructor
  · rintro ⟨hsettled, hundo⟩
    exact ⟨settled_iff.mp hsettled, by simpa only [settled_iff] using hundo⟩
  · rintro ⟨hgauged, hundo⟩
    exact ⟨settled_iff.mpr hgauged, by simpa only [settled_iff] using hundo⟩

lemma movesKeep_packed : MovesKeep Packed setup known := fun _ _ _ h => h.packed

lemma Settled.steady (h : p.Settled setup known) (hlast : p.lastMove = none) :
    p.Steady setup known :=
  ⟨h, Or.inl hlast⟩

/-- **The cost of a settled plan is the one that measuring all terms would give.** -/
theorem Settled.cost_eq (hsetup : setup.Fair) (h : p.Settled setup known) :
    p.cost setup
      = cost setup { p with tally := p.tally.measured setup.objective true p.layout } :=
  (settled_iff.mp h).cost_eq hsetup

lemma load_sound {k : Kept Rat} (hk : KeptSound known k) :
    Edit.Leads (Sound known) (load k) (fun _ => Sound known) (fun _ => False) := by
  obtain ⟨q, hq, rfl⟩ := hk
  refine Edit.Leads.of_ok fun p h => ⟨(), _, run_load h.layout hq, ?_⟩
  exact ⟨hq, h.norms, by simp⟩

section Search

variable [DrawSource ρ Rat] [LawfulDraws ρ Rat]

/-- Whether it succeeds or fails, a move keeps a plan sound; it fails only if it is stuck. -/
lemma perturb_sound (hsetup : setup.Fair) (everything : Bool) {B : Prop}
    (hB : ∀ (p : Plan Rat) (r : ρ), p.Sound known → p.Stuck setup r → B) :
    Edit.Leads (fun t : Drawn (Plan Rat) ρ => t.state.Sound known) (perturb setup everything)
      (fun _ t => t.state.Sound known) (fun t => t.state.Sound known ∧ B) := by
  rintro ⟨p, r⟩ h
  by_cases hstuck : p.Stuck setup r
  · obtain ⟨r', hrun⟩ := run_perturb_stuck h.norms everything hstuck
    rw [hrun]
    exact ⟨h, hB p r h hstuck⟩
  · obtain ⟨q, r', hrun, hmoved⟩ := run_perturb hsetup h everything hstuck
    rw [hrun]
    exact hmoved.sound

/-- **The operations of a plan keep it sound.** -/
theorem keeps_sound (hsetup : setup.Fair) (known : Layout.Makeups Rat) :
    (space setup : SearchSpace Rat (Plan Rat) ρ (Kept Rat)).Keeps (Sound known)
      (KeptSound known) where
  perturb := (perturb_sound hsetup false fun _ _ _ _ => trivial).mono (fun _ h => h)
    (fun _ _ h => h) fun _ h => h.1
  restore := restore_leads.of_total
  keep := fun p h => ⟨p, h.layout, rfl⟩
  load := fun _ hk => (load_sound hk).of_total

/-- **The operations of a plan keep it steady.** -/
theorem keeps_steady (hsetup : setup.Fair) (known : Layout.Makeups Rat) :
    (space setup : SearchSpace Rat (Plan Rat) ρ (Kept Rat)).Keeps (Steady setup known)
      (KeptSettled setup known) := by
  have hsteady : Steady setup known = Poised Packed setup known :=
    funext fun p => propext steady_iff
  have hkept : KeptSettled setup known = KeptGauged Packed setup known :=
    funext fun k => by simp only [KeptSettled, KeptGauged, settled_iff]
  rw [hsteady, hkept]
  exact keeps_poised hsetup movesKeep_packed

end Search

end Plan

end BlockPlan
