import BlockPlan.Proofs.Cooling.Scaled
import BlockPlan.Proofs.Mirror
import BlockPlan.Proofs.Search.Course

/-!
# Searches that mirror each other

Two search spaces mirror each other when their operations do and their costs differ by the unit
alone.  So do two searches then: they make the same changes, accept the same ones and find the same
states, and whatever they report in the unit of the costs differs by this unit.

* `SearchSpace.Mirrors` — two search spaces that mirror each other.
* `Standing.Scaled`, `Trace.scaled` — where a search stands, and what it reports, in another unit.
* `trial_mirrors` — a single trial.
* **`run_mirrors`** — a whole search.
* **`Course.scaled`** — the course of a search, trial by trial.
-/

namespace BlockPlan

variable {σ σ' ρ κ κ' : Type}

/-- Two search spaces that mirror each other, with costs in units that differ by a factor. -/
structure SearchSpace.Mirrors [DrawSource ρ Rat] (f : Rat) (R : σ → σ' → Prop) (K : κ → κ' → Prop)
    (space : SearchSpace Rat σ ρ κ) (space' : SearchSpace Rat σ' ρ κ') : Prop where
  perturb : Edit.Mirrors (Drawn.Like R) Eq space.perturb space'.perturb
  restore : Edit.Mirrors R Eq space.restore space'.restore
  cost : ∀ s s', R s s' → space'.cost s' = (space.cost s).map (· * f)
  keep : ∀ s s', R s s' → K (space.keep s) (space'.keep s')
  load : ∀ k k', K k k' → Edit.Mirrors R Eq (space.load k) (space'.load k')

/-- What a search reports, in another unit. -/
def Trace.scaled (f : Rat) (t : Trace Rat) : Trace Rat :=
  { t with
    initialTemperature := t.initialTemperature * f
    bestCost := t.bestCost * f
    finalCost := t.finalCost * f
    costs := t.costs.map (· * f)
    temperatures := t.temperatures.map (· * f) }

namespace Annealing

open Edit (Mirrors)

/-- Where two searches stand, in units that differ by a factor. -/
structure Standing.Scaled (f : Rat) (K : κ → κ' → Prop) (s : Standing Rat κ)
    (s' : Standing Rat κ') :
    Prop where
  cost : s'.cost = s.cost * f
  bestCost : s'.bestCost = s.bestCost * f
  best : K s.best s'.best
  bestIteration : s'.bestIteration = s.bestIteration
  iterations : s'.iterations = s.iterations

/-- What two levels record, in units that differ by a factor. -/
structure LevelRecord.Scaled (f : Rat) (l l' : LevelRecord Rat) : Prop where
  cost : l'.cost = l.cost * f
  temperature : l'.temperature = l.temperature * f
  acceptance : l'.acceptance = l.acceptance
  accepted : l'.accepted = l.accepted

/-- The records of levels, one column at a time. -/
lemma LevelRecord.Scaled.columns {f : Rat} {ls ls' : List (LevelRecord Rat)}
    (h : List.Forall₂ (LevelRecord.Scaled f) ls ls') :
    ls'.map (·.cost) = (ls.map (·.cost)).map (· * f) ∧
      ls'.map (·.temperature) = (ls.map (·.temperature)).map (· * f) ∧
      ls'.map (·.acceptance) = ls.map (·.acceptance) ∧
      ls'.map (·.accepted) = ls.map (·.accepted) := by
  induction h with
  | nil => exact ⟨rfl, rfl, rfl, rfl⟩
  | cons hl _ ih =>
      simp only [List.map_cons, hl.cost, hl.temperature, hl.acceptance, hl.accepted, ih, true_and]

/-- Two runs with related states and the same draws, whatever their journals say. -/
abbrev RunLike (R : σ → σ' → Prop) (r : Run Rat σ ρ) (r' : Run Rat σ' ρ) : Prop :=
  Drawn.Like R r.current r'.current

variable [DrawSource ρ Rat] [Transcendental Rat] {f : Rat} {R : σ → σ' → Prop} {K : κ → κ' → Prop}
  {space : SearchSpace Rat σ ρ κ} {space' : SearchSpace Rat σ' ρ κ'}

/-! ## Trials -/

/-- Whether a change is accepted does not depend on the unit. -/
lemma accept_mirrors (hf : 0 < f) (delta temperature : Rat) :
    Mirrors (Drawn.Like R : Drawn σ ρ → Drawn σ' ρ → Prop) Eq (accept delta temperature)
      (accept (delta * f) (temperature * f)) := by
  have hsign : delta ≤ 0 ↔ delta * f ≤ 0 := by
    rw [← not_lt, ← not_lt, mul_pos_iff_of_pos_right hf]
  refine Mirrors.ite hsign (fun _ => Mirrors.pure rfl) fun _ =>
    Mirrors.drawUnit.bind_eq fun draw => ?_
  rw [← neg_mul, divide_mul_mul hf.ne']
  refine (Mirrors.ofExcept _).bind_eq fun exponent =>
    (Mirrors.ofExcept _).bind_eq fun probability => ?_
  exact Mirrors.pure rfl

omit [DrawSource ρ Rat] [Transcendental Rat] in
lemma note_mirrors (e e' : Event Rat) :
    Mirrors (RunLike R : Run Rat σ ρ → Run Rat σ' ρ → Prop) Eq (note e) (note e') :=
  Mirrors.modify fun _ _ h => h

omit [DrawSource ρ Rat] [Transcendental Rat] in
lemma onCurrent_mirrors {β β' : Type} {S : β → β' → Prop} {x : Edit Rat (Drawn σ ρ) β}
    {x' : Edit Rat (Drawn σ' ρ) β'} (h : Mirrors (Drawn.Like R) S x x') :
    Mirrors (RunLike R) S (onCurrent x) (onCurrent x') :=
  h.within (fun _ _ h => h) fun _ _ _ _ hs _ => hs

section Scaled

variable (hf : 0 < f) (h : space.Mirrors f R K space')

include hf h

/-- **Trials of spaces that mirror each other, at temperatures in the units of their costs, do so
too.** -/
theorem trial_mirrors (temperature : Rat) {s : Standing Rat κ} {s' : Standing Rat κ'}
    (hs : s.Scaled f K s') :
    Mirrors (Drawn.Like R) (fun v v' => v.1.Scaled f K v'.1 ∧ v'.2 = v.2)
      (trial space temperature s) (trial space' (temperature * f) s') := by
  refine h.perturb.bind_eq fun _ => Mirrors.get.bind fun t t' ht => ?_
  rw [h.cost _ _ ht.1]
  refine (Mirrors.ofExcept_map _ _).bind ?_
  rintro cost _ rfl
  have hdelta : cost * f - s'.cost = (cost - s.cost) * f := by rw [hs.cost, sub_mul]
  have hbest : cost < s.bestCost ↔ cost * f < s'.bestCost := by
    rw [hs.bestCost, mul_lt_mul_iff_left₀ hf]
  simp only [hdelta]
  refine (accept_mirrors hf _ _).bind_eq fun taken => ?_
  refine Mirrors.ite Iff.rfl (fun _ => Mirrors.ite hbest (fun _ => ?_) fun _ => ?_) fun _ => ?_
  · -- both find a new best state
    refine Mirrors.get.bind fun t t' ht => Mirrors.pure ⟨?_, rfl⟩
    exact ⟨rfl, rfl, h.keep _ _ ht.1, congrArg (· + 1) hs.iterations,
      congrArg (· + 1) hs.iterations⟩
  · refine Mirrors.pure ⟨?_, rfl⟩
    exact ⟨rfl, hs.bestCost, hs.best, hs.bestIteration, congrArg (· + 1) hs.iterations⟩
  · -- both take the change back
    refine h.restore.onState.bind_eq fun _ => Mirrors.pure ⟨?_, rfl⟩
    exact ⟨hs.cost, hs.bestCost, hs.best, hs.bestIteration, congrArg (· + 1) hs.iterations⟩

lemma trials_mirrors (temperature : Rat) (count : Nat) :
    ∀ (accepted : Nat) {s : Standing Rat κ} {s' : Standing Rat κ'}, s.Scaled f K s' →
      Mirrors (Drawn.Like R) (fun v v' => v.1.Scaled f K v'.1 ∧ v'.2 = v.2)
        (trials space temperature count accepted s)
        (trials space' (temperature * f) count accepted s') := by
  induction count with
  | zero => exact fun _ _ _ hs => Mirrors.pure ⟨hs, rfl⟩
  | succ count ih =>
      intro accepted s s' hs
      refine (trial_mirrors hf h temperature hs).bind ?_
      rintro ⟨v, taken⟩ ⟨v', _⟩ ⟨hv, rfl⟩
      exact ih _ hv

/-! ## Levels -/

lemma level_mirrors (schedule : Schedule Rat) (initial : Rat) (index : Nat) {s : Standing Rat κ}
    {s' : Standing Rat κ'} (hs : s.Scaled f K s') :
    Mirrors (RunLike R) (fun v v' => v.1.Scaled f K v'.1 ∧ v.2.Scaled f v'.2)
      (level space schedule initial index s)
      (level space' (schedule.scaled f) (initial * f) index s') := by
  rw [level, level, schedule.temperatureAt_mul hf]
  refine (Mirrors.ofExcept_map _ _).bind ?_
  rintro temperature _ rfl
  refine (onCurrent_mirrors (trials_mirrors hf h temperature _ 0 hs)).bind ?_
  rintro ⟨v, accepted⟩ ⟨v', _⟩ ⟨hv, rfl⟩
  refine (note_mirrors _ _).bind_eq fun _ => Mirrors.pure ⟨hv, ?_⟩
  exact ⟨hv.cost, rfl, rfl, rfl⟩

lemma levels_mirrors (schedule : Schedule Rat) (initial : Rat) (count : Nat) :
    ∀ (index : Nat) {s : Standing Rat κ} {s' : Standing Rat κ'}, s.Scaled f K s' →
      Mirrors (RunLike R) (fun v v' => v.1.Scaled f K v'.1 ∧
        List.Forall₂ (LevelRecord.Scaled f) v.2 v'.2)
        (levels space schedule initial count index s)
        (levels space' (schedule.scaled f) (initial * f) count index s') := by
  induction count with
  | zero => exact fun _ _ _ hs => Mirrors.pure ⟨hs, .nil⟩
  | succ count ih =>
      intro index s s' hs
      refine (level_mirrors hf h schedule initial index hs).bind fun v v' hv => ?_
      refine (ih (index + 1) hv.1).bind fun w w' hw => Mirrors.pure ⟨hw.1, ?_⟩
      exact .cons hv.2 hw.2

/-! ## A whole search -/

/-- **Searches of spaces that mirror each other report the same, each in its unit.** -/
theorem run_mirrors (schedule : Schedule Rat) (initial : Rat) :
    Mirrors (RunLike R) (fun t t' => t' = t.scaled f) (run space schedule initial)
      (run space' (schedule.scaled f) (initial * f)) := by
  refine Mirrors.get.bind fun r r' hr => ?_
  simp only [h.cost _ _ hr.1]
  refine (Mirrors.ofExcept_map _ _).bind ?_
  rintro cost _ rfl
  refine (note_mirrors _ _).bind_eq fun _ => ?_
  have hfirst : Standing.Scaled f K ⟨cost, cost, space.keep r.current.state, 0, 0⟩
      ⟨cost * f, cost * f, space'.keep r'.current.state, 0, 0⟩ :=
    ⟨rfl, rfl, h.keep _ _ hr.1, rfl, rfl⟩
  refine (levels_mirrors hf h schedule initial _ 0 hfirst).bind ?_
  rintro ⟨v, records⟩ ⟨v', records'⟩ ⟨hv, hrecords⟩
  change v.Scaled f K v' at hv
  refine (onCurrent_mirrors (h.load _ _ hv.best).onState).bind_eq fun _ => ?_
  refine Mirrors.get.bind fun last last' hlast => ?_
  rw [h.cost _ _ hlast.1]
  refine (Mirrors.ofExcept_map _ _).bind ?_
  rintro final _ rfl
  refine (note_mirrors _ _).bind_eq fun _ => Mirrors.pure ?_
  simp only [Trace.scaled, hv.bestCost, hv.iterations, hv.bestIteration,
    LevelRecord.Scaled.columns hrecords]

end Scaled

/-! ## The course of a search -/

/-- Where a search stands, in another unit. -/
def Standing.scaled (f : Rat) (s : Standing Rat κ) : Standing Rat κ :=
  { s with cost := s.cost * f, bestCost := s.bestCost * f }

/-- What a trial leads to, in another unit. -/
def Visit.scaled (f : Rat) (v : Visit σ ρ κ) : Visit σ ρ κ :=
    { v with standing := v.standing.scaled f }

omit [DrawSource ρ Rat] [Transcendental Rat] in
lemma Standing.scaled_iff {s s' : Standing Rat κ} : s.Scaled f Eq s' ↔ s' = s.scaled f := by
  constructor
  · intro h
    cases s'
    simp only [scaled, Standing.mk.injEq]
    exact ⟨h.cost, h.bestCost, h.best.symm, h.bestIteration, h.iterations⟩
  · rintro rfl
    exact ⟨rfl, rfl, rfl, rfl, rfl⟩

/-- **The course of a search in another unit**: the same changes are made from the same draws, and
the same ones are accepted. -/
theorem Course.scaled (hf : 0 < f) {space' : SearchSpace Rat σ ρ κ}
    (h : space.Mirrors f Eq Eq space') {schedule : Schedule Rat} {initial : Rat}
    {s₀ s : Standing Rat κ} {t₀ t : Drawn σ ρ} {visits : List (Visit σ ρ κ)}
    (hcourse : Course space schedule initial s₀ t₀ visits s t) :
    Course space' (schedule.scaled f) (initial * f) (s₀.scaled f) t₀ (visits.map (Visit.scaled f))
      (s.scaled f) t := by
  induction hcourse with
  | start => exact .start
  | @trial visits s t temperature v _ htemperature hrun ih =>
      have hs : s.Scaled f Eq (s.scaled f) := Standing.scaled_iff.mpr rfl
      obtain ⟨⟨standing, taken⟩, u, hrun', ⟨hstanding, htaken⟩, hu⟩ :=
        (trial_mirrors hf h temperature hs).run_ok (Drawn.like_eq_iff.mpr rfl) hrun
      obtain rfl : standing = v.standing.scaled f := Standing.scaled_iff.mp hstanding
      obtain rfl : taken = v.accepted := htaken
      obtain rfl : v.current = u := Drawn.like_eq_iff.mp hu
      rw [List.map_append]
      refine ih.trial (v := v.scaled f) ?_ hrun'
      rw [List.length_map, schedule.temperatureAt_mul hf]
      exact congrArg (Except.map (· * f)) htemperature

end Annealing

end BlockPlan
